import Loxley.Proofs.SessionSafety

/-!
# Undefined variables

Where the error for an undefined variable comes from. A local variable is never missing when it is
read. It is missing when it is assigned in exactly one case: inside its own initializer, where scope
analysis has declared it already and the machine has not.
-/

set_option autoImplicit false

namespace Loxley

theorem UnaryOp.apply_ne_undefined (op : UnaryOp) (operand : Value) (missing : Text) :
    op.apply operand ≠ .error (.undefinedVariable missing) := by
  cases op <;> cases operand <;> simp [UnaryOp.apply]

private theorem Value.onNumbers_ne_undefined {operation : Float → Float → Except Mishap Value}
    {missing : Text} (silent : ∀ left right,
      operation left right ≠ .error (.undefinedVariable missing)) (left right : Value) :
    Value.onNumbers operation left right ≠ .error (.undefinedVariable missing) := by
  unfold Value.onNumbers
  split
  · exact silent _ _
  · simp

theorem BinaryOp.apply_ne_undefined (op : BinaryOp) (left right : Value) (missing : Text) :
    op.apply left right ≠ .error (.undefinedVariable missing) := by
  cases op with
  | equal | notEqual => simp [BinaryOp.apply]
  | add => cases left <;> cases right <;> simp [BinaryOp.apply, Value.add]
  | divide =>
      refine Value.onNumbers_ne_undefined (fun left right => ?_) left right
      split <;> simp
  | subtract | multiply | greater | greaterEqual | less | lessEqual =>
      exact Value.onNumbers_ne_undefined (fun _ _ => by simp) left right

theorem Value.ofHost_ne_undefined (value : Value) (native missing : Text) :
    value.ofHost native ≠ .error (.undefinedVariable missing) := by
  unfold Value.ofHost
  split <;> simp

/-- The error of a program that a function gave back. -/
def HostReply.cause? (reply : HostReply) : Option RuntimeError :=
  reply.error.bind (·.cause)

/-- The computation does not end with a given error. -/
def Post.sparing {α : Type} (problem : RuntimeError) : Post α where
  ok _ _ := True
  error other _ := other ≠ problem
  fault _ _ := True

namespace Machine

variable {problem : RuntimeError} {missing : Text}

theorem finish_sparing (undefined : problem.mishap = .undefinedVariable missing) (machine : Machine)
    (token : Token) {value : Except Mishap Value}
    (silent : value ≠ .error (.undefinedVariable missing)) :
    (machine.finish token value).Meets (.sparing problem) := by
  cases value with
  | ok value => trivial
  | error mishap =>
      rintro rfl
      exact silent (congrArg Except.error undefined)

theorem operate_sparing (undefined : problem.mishap = .undefinedVariable missing) (machine : Machine)
    (op : BinaryOp) (token : Token) (left right : Value) :
    (machine.operate op token left right).Meets (.sparing problem) := by
  unfold operate
  split
  · trivial
  · exact finish_sparing undefined machine token (op.apply_ne_undefined left right missing)

theorem print_sparing (machine : Machine) (value : Value) :
    (machine.print value).Meets (.sparing problem) := by
  unfold print
  split <;> trivial

/-- A call ends with an error for an undefined variable only if the function gave that error back. -/
theorem conclude_sparing (undefined : problem.mishap = .undefinedVariable missing) (machine : Machine)
    (token : Token) (callee : Value) {reply : HostReply} (other : reply.cause? ≠ some problem) :
    (machine.conclude token callee reply).Meets (.sparing problem) := by
  unfold conclude
  split
  · next error failed =>
      simp only [HostReply.cause?, failed, Option.bind_some] at other
      cases cause : error.cause with
      | none =>
          simp only [HostError.at, cause]
          rintro rfl
          cases undefined
      | some original =>
          simp only [HostError.at, cause]
          rintro rfl
          exact other cause
  · exact finish_sparing undefined machine token (reply.value.ofHost_ne_undefined _ missing)
  · trivial

end Machine

namespace Visit

open Machine

/-- The work does not end with a given error, and does not give it back to the host either. -/
def spares (problem : RuntimeError) : (visit : Visit) → Post visit.task.Answer
  | ⟨.apply _ _, _⟩ =>
    { ok := fun reply _ => reply.cause? ≠ some problem
      error := fun other _ => other ≠ problem
      fault := fun _ _ => True }
  | ⟨.evaluate _ _, _⟩ | ⟨.assign _ _ _ _, _⟩ | ⟨.call _ _ _, _⟩ => .sparing problem
  | ⟨.evaluateAll _ _, _⟩ => .sparing problem
  | ⟨.execute _, _⟩ | ⟨.executeAll _, _⟩ => .sparing problem
  | ⟨.interpret _, _⟩ => .sparing problem

/-- A host function fails with an error that none of the functions it applied gave to it. -/
inductive Invents (problem : RuntimeError) : Visit → Prop
  | host {reference arguments machine fuel reply after}
      (answered : Machine.apply (fuel + 1) (.native reference) arguments machine = .ok reply after)
      (cause : reply.cause? = some problem)
      (own : ∀ next, Starts ⟨.apply (.native reference) arguments, machine⟩ next →
        (next.run fuel).Meets (next.spares problem)) :
      Invents problem ⟨.apply (.native reference) arguments, machine⟩

/-- A visit at which an error about a variable arises. -/
inductive Raises (problem : RuntimeError) : Visit → Prop
  | read {pending name reference machine after}
      (failed : machine.read name reference = .error problem after) :
      Raises problem ⟨.evaluate pending (.ident name reference), machine⟩
  | assign {pending name reference value machine after}
      (failed : machine.assign name value reference = .error problem after) :
      Raises problem ⟨.assign pending name reference value, machine⟩
  | host {visit} (invents : Invents problem visit) : Raises problem visit

/-- The contract of work that does not end with a given error. -/
abbrev spared (problem : RuntimeError) : Contract :=
  .of (fun _ => True) (spares problem)

section Rules

variable {problem : RuntimeError} {missing : Text} {α β : Type}

private theorem spared_andThen {plan : Plan α} {next : α → Machine → Plan β}
    (first : plan.Meets (spared problem) (.sparing problem))
    (second : ∀ value after, (next value after).Meets (spared problem) (.sparing problem)) :
    (plan.andThen next).Meets (spared problem) (.sparing problem) :=
  first.andThen (fun value after _ => second value after) (fun _ _ other => other)
    (fun _ _ _ => trivial)

private theorem spared_evaluate (pending : Option Text) (machine : Machine) (expr : ResolvedExpr) :
    (Plan.evaluate pending machine expr).Meets (spared problem) (.sparing problem) :=
  Plan.meets_start ⟨trivial, rfl⟩ fun _ spared => spared

private theorem spared_evaluateAll (pending : Option Text) (machine : Machine)
    (exprs : List ResolvedExpr) :
    (Plan.evaluateAll pending machine exprs).Meets (spared problem) (.sparing problem) :=
  Plan.meets_start ⟨trivial, rfl⟩ fun _ spared => spared

private theorem spared_execute (machine : Machine) (stmt : ResolvedStmt) :
    (Plan.execute machine stmt).Meets (spared problem) (.sparing problem) :=
  Plan.meets_start ⟨trivial, rfl⟩ fun _ spared => spared

private theorem spared_executeAll (machine : Machine) (stmts : List ResolvedStmt) :
    (Plan.executeAll machine stmts).Meets (spared problem) (.sparing problem) :=
  Plan.meets_start ⟨trivial, rfl⟩ fun _ spared => spared

private theorem spared_planNested (body : List ResolvedStmt) (machine : Machine) :
    (planNested body machine).Meets (spared problem) (.sparing problem) := by
  refine (spared_executeAll (machine.enter machine.current) body).map fun result spared => ?_
  rw [Result.meets_ensuring_iff]
  exact spared

private theorem spared_planExpr (undefined : problem.mishap = .undefinedVariable missing)
    (pending : Option Text) (machine : Machine) (expr : ResolvedExpr)
    (innocent : ¬ Raises problem ⟨.evaluate pending expr, machine⟩) :
    (planExpr pending machine expr).Meets (spared problem) (.sparing problem) := by
  cases expr with
  | literal token value => trivial
  | group paren inner => exact spared_evaluate pending machine inner
  | unary op token operand =>
      refine spared_andThen (spared_evaluate pending machine operand) fun value after => ?_
      exact finish_sparing undefined after token (op.apply_ne_undefined value missing)
  | binary op token left right =>
      refine spared_andThen (spared_evaluate pending machine left) fun leftValue middle => ?_
      refine spared_andThen (spared_evaluate pending middle right) fun rightValue after => ?_
      exact operate_sparing undefined after op token leftValue rightValue
  | logical op token left right =>
      refine spared_andThen (spared_evaluate pending machine left) fun value middle => ?_
      split
      · trivial
      · exact spared_evaluate pending middle right
  | ident name reference =>
      simp only [planExpr, Plan.Meets]
      cases found : machine.read name reference with
      | error other after =>
          rintro rfl
          exact innocent (.read found)
      | ok | fault | exhausted => trivial
  | assign name reference value =>
      refine spared_andThen (spared_evaluate pending machine value) fun assigned middle => ?_
      exact Plan.meets_start ⟨trivial, rfl⟩ fun _ spared => spared
  | call paren callee arguments =>
      refine spared_andThen (spared_evaluate pending machine callee) fun function middle => ?_
      refine spared_andThen (spared_evaluateAll pending middle arguments) fun values after => ?_
      exact Plan.meets_start ⟨trivial, rfl⟩ fun _ spared => spared

private theorem spared_planCall (undefined : problem.mishap = .undefinedVariable missing)
    (paren : Token) (callee : Value) (arguments : List Value) (machine : Machine) :
    (planCall paren callee arguments machine).Meets (spared problem) (.sparing problem) := by
  unfold planCall
  split
  · rintro rfl
    cases undefined
  split
  · rintro rfl
    cases undefined
  split
  · rintro rfl
    cases undefined
  · have concluded : ((Plan.apply { machine with depth := machine.depth + 1 } callee
        arguments).andThen fun reply after => .done (after.conclude paren callee reply)).Meets
          (spared problem) (.sparing problem) := by
      refine Plan.Meets.andThen (Plan.meets_start ⟨trivial, rfl⟩ fun _ spared => spared)
        (fun reply after other => ?_) (fun _ _ other => other) (fun _ _ _ => trivial)
      exact conclude_sparing undefined after paren callee other
    refine concluded.map fun result spared => ?_
    rw [Result.meets_ensuring_iff]
    exact spared

private theorem spared_planFunction (closure : Closure) (arguments : List Value) (machine : Machine) :
    (planApply arguments machine (.function closure)).Meets (spared problem)
      (spares problem ⟨.apply (.function closure) arguments, machine⟩) := by
  simp only [planApply]
  split
  · trivial
  · have body : ((Plan.executeAll (bindParameters closure.parameters arguments
        (machine.enter closure.scope)) closure.body).andThen fun completion after =>
          .done (.ok completion.value after)).Meets (spared problem) (.sparing problem) :=
      spared_andThen (spared_executeAll _ closure.body) fun _ _ => trivial
    refine body.map fun result spared => ?_
    rw [Result.meets_ensuring_iff, Result.meets_reply_iff]
    exact spared.imp (fun _ _ _ => (Option.some_ne_none problem).symm)
      (fun other _ ne same => ne (Option.some.inj same))
      (fun _ _ _ => trivial)

private theorem spared_hostAction (action : HostAction) (machine : Machine) :
    (action.plan machine).Meets (spared problem) (.sparing problem) := by
  induction action generalizing machine with
  | answer reply => trivial
  | apply callee arguments next ih =>
      refine spared_andThen (Plan.meets_start ⟨trivial, rfl⟩ fun _ spared => ?_)
        fun reply after => ih _ reply _
      exact spared.imp (fun _ _ _ => trivial) (fun _ _ other => other) (fun _ _ _ => trivial)

private theorem spared_native (reference : NativeRef) (arguments : List Value) (machine : Machine) :
    (planApply arguments machine (.native reference)).Meets (spared problem)
      (.sparing problem) := by
  simp only [planApply]
  split
  · trivial
  · exact spared_hostAction _ _

private theorem spared_planStmt (machine : Machine) (stmt : ResolvedStmt) :
    (planStmt machine stmt).Meets (spared problem) (.sparing problem) := by
  cases stmt with
  | expression token value =>
      exact spared_andThen (spared_evaluate none machine value) fun _ _ => trivial
  | print keyword value =>
      refine spared_andThen (spared_evaluate none machine value) fun value after => ?_
      exact (Result.meets_andThen_iff _ _ _).mpr (print_sparing after value)
  | declare name initializer =>
      cases initializer with
      | none => trivial
      | some initializer =>
          exact spared_andThen (spared_evaluate _ machine initializer) fun _ _ => trivial
  | block brace body => exact spared_planNested body machine
  | ifThen keyword test consequent =>
      refine spared_andThen (spared_evaluate none machine test) fun value after => ?_
      split
      · exact spared_execute after consequent
      · trivial
  | ifElse keyword test consequent alternative =>
      refine spared_andThen (spared_evaluate none machine test) fun value after => ?_
      split
      · exact spared_execute after consequent
      · exact spared_execute after alternative
  | loop keyword test body =>
      refine spared_andThen (spared_evaluate none machine test) fun value middle => ?_
      split
      · refine spared_andThen (spared_planNested [body] middle) fun completion after => ?_
        cases completion with
        | returned value => trivial
        | normal => exact spared_execute after (.loop keyword test body)
      · trivial
  | function name parameters body => trivial
  | giveBack keyword value =>
      cases value with
      | none => trivial
      | some value => exact spared_andThen (spared_evaluate none machine value) fun _ _ => trivial

private theorem spared_ofProgram (program : List ResolvedStmt) (machine : Machine) :
    (Plan.ofProgram program machine).Meets (spared problem) (.sparing problem) := by
  induction program generalizing machine with
  | nil => trivial
  | cons first rest ih => exact spared_andThen (spared_execute machine first) fun _ => ih

/-- Work at which an error does not arise ends with it only if work that it started did. -/
private theorem run_spares_of_starts (undefined : problem.mishap = .undefinedVariable missing)
    {visit : Visit} {fuel : Nat} (innocent : ¬ visit.Raises problem)
    (started : ∀ next, visit.Starts next → (next.run fuel).Meets (next.spares problem)) :
    (visit.run (fuel + 1)).Meets (visit.spares problem) := by
  have of_plan : ∀ {post}, visit.plan.Meets (spared problem) post →
      (visit.run (fuel + 1)).Meets post := by
    intro post met
    rw [visit.run_succ]
    refine met.follow ?_
    rintro next _ starts ⟨_, rfl⟩
    exact started next starts
  obtain ⟨task, machine⟩ := visit
  cases task with
  | evaluate pending expr => exact of_plan (spared_planExpr undefined pending machine expr innocent)
  | evaluateAll pending exprs =>
      refine of_plan ?_
      cases exprs with
      | nil => trivial
      | cons first rest =>
          refine spared_andThen (spared_evaluate pending machine first) fun value middle => ?_
          exact spared_andThen (spared_evaluateAll pending middle rest) fun _ _ => trivial
  | assign pending name reference value =>
      simp only [run]
      cases stored : machine.assign name value reference with
      | error other after =>
          rintro rfl
          exact innocent (.assign stored)
      | ok | fault | exhausted => trivial
  | call paren callee arguments =>
      exact of_plan (spared_planCall undefined paren callee arguments machine)
  | apply callee arguments =>
      cases callee with
      | nil | bool | number | string | foreign => trivial
      | function closure => exact of_plan (spared_planFunction closure arguments machine)
      | native reference =>
          have errors := of_plan (spared_native reference arguments machine)
          simp only [run] at errors ⊢
          cases answered : Machine.apply (fuel + 1) (.native reference) arguments machine with
          | ok reply after => exact fun cause => innocent (.host (.host answered cause started))
          | error other after =>
              rw [answered] at errors
              exact errors
          | fault | exhausted => trivial
  | execute stmt => exact of_plan (spared_planStmt machine stmt)
  | executeAll stmts =>
      refine of_plan ?_
      cases stmts with
      | nil => trivial
      | cons first rest =>
          refine spared_andThen (spared_execute machine first) fun completion after => ?_
          cases completion with
          | returned value => trivial
          | normal => exact spared_executeAll after rest
  | interpret program => exact of_plan (spared_ofProgram program machine)

/-- An error for an undefined variable arises at something that the work leads to. -/
theorem run_spares (undefined : problem.mishap = .undefinedVariable missing) {visit : Visit}
    (innocent : ∀ origin, visit.Reaches origin → ¬ origin.Raises problem) (fuel : Nat) :
    (visit.run fuel).Meets (visit.spares problem) := by
  induction fuel generalizing visit with
  | zero =>
      rw [run_zero]
      trivial
  | succ fuel ih =>
      refine run_spares_of_starts undefined (innocent visit .refl) fun next starts => ?_
      exact ih fun origin reached => innocent origin (.head starts reached)

end Rules

end Visit

namespace Machine

variable {policy : HostPolicy} {scopes : Scopes} {pending : Option Text} {machine : Machine}
  {name : Token} {distance : Nat}

/-- A local variable has no binding while its own initializer is evaluated. -/
theorem ownerAt_own_initializer (ready : machine.Ready policy scopes)
    (fresh : scopes.Initializes (some name.lexeme))
    (found : (scopes.during (some name.lexeme)).distance? name.lexeme = some distance) :
    machine.heap.ownerAt machine.current distance name.lexeme = .ok none := by
  obtain ⟨innermost, outer, rfl, undeclared⟩ := fresh name.lexeme rfl
  rw [Scopes.during_some,
    Scopes.distance?_declare_self (List.cons_ne_nil innermost outer)] at found
  cases found
  have unbound : machine.heap.binds machine.current name.lexeme = false :=
    Bool.eq_false_iff.mpr fun bound => Bool.eq_false_iff.mp undeclared
      (ready.hosted.exact innermost outer rfl name.lexeme bound)
  simp [Heap.ownerAt, Heap.ancestor?_zero, unbound]

theorem ownerAt_of_ne_initializing (ready : machine.Ready policy scopes)
    (other : pending ≠ some name.lexeme)
    (found : (scopes.during pending).distance? name.lexeme = some distance) :
    ∃ owner, machine.heap.ownerAt machine.current distance name.lexeme = .ok (some owner) := by
  obtain ⟨owner, reached, bound⟩ := ready.hosted.covers.of_ne_initializing other found
  exact ⟨owner, by simp [Heap.ownerAt, reached, bound]⟩

theorem assign_eq_undefined_iff (machine : Machine) (name : Token) (value : Value) (distance : Nat) :
    machine.assign name value (some distance) = machine.undefined name ↔
      machine.heap.ownerAt machine.current distance name.lexeme = .ok none := by
  simp only [assign]
  split <;> simp_all [undefined]

end Machine

namespace Visit

open Machine

theorem Ready.of_assign {policy : HostPolicy} {pending : Option Text} {name : Token}
    {reference : Option Nat} {value : Value} {machine : Machine} {post : Post Value}
    (ready : Ready policy ⟨.assign pending name reference value, machine⟩ post) :
    ∃ scopes, machine.Ready policy scopes ∧ scopes.Initializes pending ∧
      (scopes.during pending).distance? name.lexeme = reference := by
  cases ready with
  | assign ready fresh known => exact ⟨_, ready, fresh, rfl⟩

/-- A local assignment finds no binding exactly in the initializer of its own variable. -/
theorem Ready.ownerAt_eq_none_iff {policy : HostPolicy} {pending : Option Text} {name : Token}
    {distance : Nat} {value : Value} {machine : Machine} {post : Post Value}
    (ready : Ready policy ⟨.assign pending name (some distance) value, machine⟩ post) :
    machine.heap.ownerAt machine.current distance name.lexeme = .ok none ↔
      pending = some name.lexeme := by
  obtain ⟨scopes, machineReady, fresh, found⟩ := ready.of_assign
  constructor
  · intro missing
    by_cases own : pending = some name.lexeme
    · exact own
    · obtain ⟨owner, bound⟩ := ownerAt_of_ne_initializing machineReady own found
      cases missing.symm.trans bound
  · rintro rfl
    exact ownerAt_own_initializer machineReady fresh found

/-- The visits at which an accepted program can miss a variable. -/
inductive Misses (problem : RuntimeError) : Visit → Prop
  | globalRead {pending name machine after} (failed : machine.read name none = .error problem after) :
      Misses problem ⟨.evaluate pending (.ident name none), machine⟩
  | globalAssign {pending name value machine after}
      (failed : machine.assign name value none = .error problem after) :
      Misses problem ⟨.assign pending name none value, machine⟩
  /-- The one local variable that can be missing is assigned in its own initializer. -/
  | ownInitializer {name distance value machine after}
      (failed : machine.assign name value (some distance) = .error problem after) :
      Misses problem ⟨.assign (some name.lexeme) name (some distance) value, machine⟩
  | host {visit} (invents : Invents problem visit) : Misses problem visit

theorem Ready.misses {policy : HostPolicy} {visit : Visit} {post : Post visit.task.Answer}
    {problem : RuntimeError} (ready : Ready policy visit post)
    (raises : visit.Raises problem) : visit.Misses problem := by
  cases raises with
  | @read pending name reference machine after failed =>
      cases reference with
      | none => exact .globalRead failed
      | some distance =>
          obtain ⟨owner, value, reached, held⟩ := ready.handled
          simp [Machine.read, Heap.getAt, reached, held] at failed
  | @assign pending name reference value machine after failed =>
      cases reference with
      | none => exact .globalAssign failed
      | some distance =>
          by_cases own : pending = some name.lexeme
          · subst own
            exact .ownInitializer failed
          · obtain ⟨scopes, machineReady, _, found⟩ := ready.of_assign
            obtain ⟨owner, bound⟩ := ownerAt_of_ne_initializing machineReady own found
            simp [Machine.assign, bound] at failed
  | host invents => exact .host invents

end Visit

/--
Which variables an accepted program can miss, on any session within reach. A local assignment fails
exactly in the initializer of its own variable and finds its binding everywhere else. So every error
for an undefined variable comes from a global one, from such an assignment, or from the host.
-/
theorem Session.Reachable.local_undefined_iff_own_initializer {policy : HostPolicy}
    {held : List Value} {session checked : Session} {source : Text} {program : List ResolvedStmt}
    (reached : Session.Reachable policy held session)
    (accepted : session.check source = .done (some program) checked) :
    (∀ pending name distance value machine,
      Visit.Reaches ⟨.interpret program, session.machine.resolve program⟩
        ⟨.assign pending name (some distance) value, machine⟩ →
      (machine.assign name value (some distance) = machine.undefined name ↔
        pending = some name.lexeme) ∧
      (pending ≠ some name.lexeme →
        ∃ owner, machine.heap.ownerAt machine.current distance name.lexeme = .ok (some owner))) ∧
    ∀ fuel after problem missing, session.run fuel source = .done () after →
      after.runtimeErrors = session.runtimeErrors ++ [problem] →
      problem.mishap = .undefinedVariable missing →
      ∃ visit, Visit.Reaches ⟨.interpret program, session.machine.resolve program⟩ visit ∧
        visit.Misses problem := by
  obtain ⟨clean, _, parsed, accepts, rfl⟩ := Session.accepts_of_check accepted
  have atStart := Visit.Ready.interpret
    (reached.ready.1.resolve (Stmt.resolveProgram parsed)) accepts.acceptedAll
  constructor
  · intro pending name distance value machine visited
    obtain ⟨_, ready⟩ := atStart.reaches visited
    refine ⟨(machine.assign_eq_undefined_iff name value distance).trans ready.ownerAt_eq_none_iff,
      fun other => ?_⟩
    obtain ⟨scopes, machineReady, _, found⟩ := ready.of_assign
    exact Machine.ownerAt_of_ne_initializing machineReady other found
  · intro fuel after problem missing done reported undefined
    by_contra none
    obtain ⟨logged, resembles, ran⟩ := Session.run_of_accepts fuel clean accepts
    have innocent : ∀ origin, Visit.Reaches ⟨.interpret (Stmt.resolveProgram parsed),
        session.machine.resolve (Stmt.resolveProgram parsed)⟩ origin → ¬ origin.Raises problem := by
      intro origin visited raises
      obtain ⟨_, ready⟩ := atStart.reaches visited
      exact none ⟨origin, visited, ready.misses raises⟩
    have spared : (Machine.interpret fuel (Stmt.resolveProgram parsed)
        (session.machine.resolve (Stmt.resolveProgram parsed))).Meets (.sparing problem) :=
      Visit.run_spares undefined innocent (fuel + 1)
    rw [ran] at done
    simp only [Session.execute, Session.onMachine, resembles.machine] at done
    generalize Machine.interpret fuel (Stmt.resolveProgram parsed) _ = result at done spared
    cases result with
    | ok value machine =>
        cases done
        simp [resembles.runtimeErrors] at reported
    | error other machine =>
        cases done
        simp only [Session.reportRuntime, Session.writeReport, Session.writeError,
          resembles.runtimeErrors, List.append_cancel_left_eq, List.cons.injEq, and_true] at reported
        exact spared reported
    | fault reason machine => cases done
    | exhausted => cases done

private theorem run_own_initializer : ∃ after problem,
    (Session.start fun _ => 0).run 20 "{ var a = a = nil; }" = .done () after ∧
      after.runtimeErrors = [problem] ∧ problem.mishap = .undefinedVariable "a" := by
  have runs : ((Session.start fun _ => 0).run 20 "{ var a = a = nil; }").passes
      (fun _ after => after.runtimeErrors.map (·.mishap) == [.undefinedVariable "a"]) = true := by
    decide +kernel
  obtain ⟨_, after, done, blamed⟩ := Outcome.passes_iff.mp runs
  obtain ⟨problem, only, undefined⟩ := List.map_eq_singleton_iff.mp (eq_of_beq blamed)
  exact ⟨after, problem, done, only, undefined⟩

/-- In this program every name has a distance, and yet a variable is undefined. -/
theorem Session.own_initializer_assignment_fails :
    (∃ program checked,
      (Session.start fun _ => 0).check "{ var a = a = nil; }" = .done (some program) checked ∧
        ∀ use ∈ Stmt.usesAll program, use.reference.isSome) ∧
    ∃ after problem, (Session.start fun _ => 0).run 20 "{ var a = a = nil; }" = .done () after ∧
      after.runtimeErrors = [problem] ∧ problem.mishap = .undefinedVariable "a" := by
  refine ⟨?_, run_own_initializer⟩
  have checks : ((Session.start fun _ => 0).check "{ var a = a = nil; }").passes
      (fun program _ => program.any fun program =>
        (Stmt.usesAll program).all (·.reference.isSome)) = true := by
    decide +kernel
  obtain ⟨given, checked, done, found⟩ := Outcome.passes_iff.mp checks
  cases given with
  | none => cases found
  | some program => exact ⟨program, checked, done, List.all_eq_true.mp found⟩

/-- The error of that program comes from the assignment in its initializer. -/
theorem Session.own_initializer_assignment_blamed :
    ∃ program checked after problem,
      (Session.start fun _ => 0).check "{ var a = a = nil; }" = .done (some program) checked ∧
      (Session.start fun _ => 0).run 20 "{ var a = a = nil; }" = .done () after ∧
      after.runtimeErrors = [problem] ∧ problem.mishap = .undefinedVariable "a" ∧
      ∃ visit, Visit.Reaches ⟨.interpret program, (Machine.start fun _ => 0).resolve program⟩ visit ∧
        visit.Misses problem := by
  obtain ⟨parsed, accepts⟩ := (Source.isAccepted_iff "{ var a = a = nil; }").mp (by decide +kernel)
  have clean : (Session.start fun _ => 0).hadError = false := rfl
  obtain ⟨checked, _, done⟩ := Session.check_of_accepts clean accepts
  obtain ⟨after, problem, ran, only, undefined⟩ := run_own_initializer
  have blamed := (Session.Reachable.local_undefined_iff_own_initializer
    (.start rfl : Session.Reachable .valuesOnly [] (Session.start fun _ => 0)) done).2
    20 after problem "a" ran only undefined
  exact ⟨_, checked, after, problem, done, ran, only, undefined, blamed⟩

end Loxley
