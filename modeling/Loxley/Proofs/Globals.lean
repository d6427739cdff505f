import Mathlib.Data.Set.Insert
import Loxley.Proofs.SessionSteps

/-!
# The names of the globals

Only a declaration that stands at the top of a program adds a name to the globals. Whatever runs in
blocks, loops and functions, and however it ends, adds none, and no name is ever taken away.
-/

set_option autoImplicit false

namespace Loxley

theorem Heap.mem_names_iff (heap : Heap) (environment : EnvironmentId) (name : Text) :
    name ∈ heap.names environment ↔ heap.binds environment name = true := by
  rw [names_eq_map_bindings, List.mem_mergeSort, binds, lookup?_eq_lookup_bindings,
    List.lookup_isSome_iff]
  simp only [List.mem_map, beq_iff_eq]
  exact exists_congr fun binding => and_congr_right fun _ => eq_comm

section Names

variable {Reference : Type}

/-- The name that a statement declares in the scope in which it stands. -/
def Stmt.declaredName? : Stmt Reference → Option Text
  | .declare name _ | .function name _ _ => some name.lexeme
  | _ => none

/-- The names that the statements of a program declare, not counting those inside of them. -/
def Stmt.declaredNames (program : List (Stmt Reference)) : Set Text :=
  { name | ∃ stmt ∈ program, stmt.declaredName? = some name }

@[simp] theorem Stmt.declaredNames_nil : Stmt.declaredNames ([] : List (Stmt Reference)) = ∅ := by
  simp [declaredNames]

theorem Stmt.declaredNames_cons (first : Stmt Reference) (rest : List (Stmt Reference)) :
    Stmt.declaredNames (first :: rest) =
      { name | first.declaredName? = some name } ∪ Stmt.declaredNames rest := by
  ext name
  simp [declaredNames]

end Names

/-- The names that a source declares at its top, whatever else is wrong with it. -/
def Source.declaredNames (source : Text) : Set Text :=
  { name | ∃ program, (Source.program source).result = .ok program ∧
    name ∈ Stmt.declaredNames program }

theorem Source.Accepts.declaredNames {source : Text} {program : List (Stmt Unit)}
    (accepts : Source.Accepts source program) :
    Source.declaredNames source = Stmt.declaredNames program := by
  simp [Source.declaredNames, accepts.parsed]

/-- The machine that a computation leaves. -/
def Result.machine? {α : Type} : Result α → Option Machine
  | .ok _ machine | .error _ machine | .fault _ machine => some machine
  | .exhausted => none

theorem Result.Meets.of_machine? {α : Type} {holds : Machine → Prop} {result : Result α}
    {after : Machine} (met : result.Meets (.always holds)) (left : result.machine? = some after) :
    holds after := by
  cases result <;> cases left <;> exact met

namespace Machine

/-- The names of the global variables. -/
def globalNames (machine : Machine) : Set Text :=
  { name | name ∈ machine.heap.names globals }

theorem mem_globalNames_iff {machine : Machine} {name : Text} :
    name ∈ machine.globalNames ↔ machine.heap.binds globals name = true :=
  machine.heap.mem_names_iff globals name

theorem Follows.globalNames_subset {growing : EnvironmentId → Prop} {before after : Machine}
    (follows : Follows growing before after) : before.globalNames ⊆ after.globalNames := by
  intro name bound
  rw [mem_globalNames_iff] at bound ⊢
  exact follows.heap.kept globals name bound

/-- Code that adds no variable to an older environment adds none to the globals. -/
theorem Follows.globalNames_eq {before after : Machine}
    (follows : Follows (fun _ => False) before after) (known : globals < before.heap.next) :
    after.globalNames = before.globalNames := by
  refine Set.Subset.antisymm (fun name bound => ?_) follows.globalNames_subset
  rw [mem_globalNames_iff] at bound ⊢
  exact follows.heap.closed globals known id name bound

/-- A variable that is defined among the globals is the only name that they gain. -/
theorem globalNames_of_define {machine after : Machine} {name : Text} {value : Value}
    (known : globals < machine.heap.next)
    (defined : after.heap = machine.heap.define globals name value) :
    after.globalNames = machine.globalNames ∪ {other | some name = some other} := by
  ext other
  rw [mem_globalNames_iff, defined, Heap.binds_define_iff, Set.mem_union, mem_globalNames_iff]
  simp [known, @eq_comm _ name]

/-- A statement that is no declaration adds no variable to the environment in which it runs. -/
theorem execute_steady_of_plain {stmt : Stmt Unit} (plain : stmt.Plain) (scopes : Scopes)
    (fuel : Nat) (machine : Machine) :
    (execute fuel (stmt.resolve scopes) machine).Meets (steady machine) := by
  induction fuel generalizing stmt scopes machine with
  | zero => trivial
  | succ fuel ih =>
      have evaluated := evaluate_steady fuel
      cases stmt with
      | expression token value =>
          exact follows_andThen (evaluated machine _) fun _ after _ => .refl _ after
      | print keyword value =>
          exact follows_andThen (evaluated machine _) fun value after _ =>
            follows_andThen (print_steady after value) fun _ written _ => .refl _ written
      | declare name initializer => cases plain.1
      | block brace body => exact nested_steady fuel machine _
      | ifThen keyword test consequent =>
          refine follows_andThen (evaluated machine _) fun value after _ => ?_
          split
          · exact ih plain.2.2 scopes after
          · exact .refl _ after
      | ifElse keyword test consequent alternative =>
          refine follows_andThen (evaluated machine _) fun value after _ => ?_
          split
          · exact ih plain.2.2.1 scopes after
          · exact ih plain.2.2.2 (consequent.extend scopes) after
      | loop keyword test body =>
          refine follows_andThen (evaluated machine _) fun value middle _ => ?_
          split
          · refine follows_andThen (nested_steady fuel middle _) fun completion after _ => ?_
            cases completion with
            | returned value => exact .refl _ after
            | normal => exact ih plain scopes after
          · exact .refl _ middle
      | function name parameters body => cases plain.1
      | giveBack keyword value =>
          cases value with
          | none => exact .refl _ machine
          | some value => exact follows_andThen (evaluated machine _) fun _ after _ => .refl _ after

/-- The globals may have gained some names, and all of them if nothing went wrong. -/
def gaining {α : Type} (names : Set Text) (machine : Machine) : Post α where
  ok _ after := after.globalNames = machine.globalNames ∪ names
  error _ after := after.globalNames ⊆ machine.globalNames ∪ names
  fault _ after := after.globalNames ⊆ machine.globalNames ∪ names

theorem gaining_subset {α : Type} {names : Set Text} {machine after : Machine} {result : Result α}
    (met : result.Meets (gaining names machine)) (left : result.machine? = some after) :
    after.globalNames ⊆ machine.globalNames ∪ names := by
  cases result with
  | ok value machine =>
      cases left
      exact Eq.subset met
  | error | fault =>
      cases left
      exact met
  | exhausted => cases left

theorem gaining_of_steady {α : Type} {machine : Machine} {result : Result α}
    (met : result.Meets (steady machine)) (known : globals < machine.heap.next) :
    result.Meets (gaining ∅ machine) := by
  have same : ∀ after, Follows (fun _ => False) machine after →
      after.globalNames = machine.globalNames := fun _ follows => follows.globalNames_eq known
  refine met.imp (fun _ after follows => ?_) (fun _ after follows => ?_) (fun _ after follows => ?_)
  · simp [gaining, same after follows]
  · simp [gaining, same after follows]
  · simp [gaining, same after follows]

/-- One statement at the top of a program. -/
theorem execute_gaining {stmt : Stmt Unit} (formed : stmt.WellFormed) (scopes : Scopes) (fuel : Nat)
    {machine : Machine} (isTop : machine.current = globals) (known : globals < machine.heap.next) :
    (execute fuel (stmt.resolve scopes) machine).Meets
      (gaining { name | stmt.declaredName? = some name } machine) := by
  cases fuel with
  | zero => trivial
  | succ fuel =>
      have plainly : stmt.isDeclaration = false → stmt.declaredName? = none →
          (execute (fuel + 1) (stmt.resolve scopes) machine).Meets
            (gaining { name | stmt.declaredName? = some name } machine) := by
        intro notDeclaration namesNothing
        rw [namesNothing]
        have none : { name : Text | Option.none = some name } = ∅ := by simp
        rw [none]
        exact gaining_of_steady (execute_steady_of_plain ⟨notDeclaration, formed⟩ ..) known
      have declared : ∀ {name : Text} {value : Value} {middle after : Machine},
          Follows (fun _ => False) machine middle →
          after.heap = middle.heap.define middle.current name value →
          after.globalNames = machine.globalNames ∪ {other | some name = some other} := by
        intro name value middle after follows defined
        rw [follows.current, isTop] at defined
        rw [globalNames_of_define (Nat.lt_of_lt_of_le known follows.heap.next) defined,
          follows.globalNames_eq known]
      cases stmt with
      | declare name initializer =>
          cases initializer with
          | none => exact declared (.refl _ machine) rfl
          | some initializer =>
              have met := evaluate_steady fuel machine
                (initializer.resolve (scopes.declare name.lexeme false))
              simp only [Stmt.resolve, Option.map_some, execute]
              rw [Result.meets_andThen_iff]
              refine met.imp (fun value after follows => ?_) (fun _ after follows => ?_)
                (fun _ after follows => ?_)
              · exact declared follows rfl
              · exact (follows.globalNames_eq known).subset.trans Set.subset_union_left
              · exact (follows.globalNames_eq known).subset.trans Set.subset_union_left
      | function name parameters body => exact declared (.refl _ machine) rfl
      | expression | print | block | ifThen | ifElse | loop | giveBack => exact plainly rfl rfl

/-- All statements of a program, up to the first error. -/
theorem interpret_gaining {program : List (Stmt Unit)} (formed : Stmt.WellFormedAll program)
    (scopes : Scopes) (fuel : Nat) {machine : Machine} (isTop : machine.current = globals)
    (known : globals < machine.heap.next) :
    (interpret fuel (Stmt.resolveAll scopes program) machine).Meets
      (gaining (Stmt.declaredNames program) machine) := by
  induction program generalizing scopes machine with
  | nil => simp [Stmt.resolveAll, interpret, Result.Meets, gaining]
  | cons first rest ih =>
      have framedFirst := execute_growing fuel machine (first.resolve scopes)
      have met := execute_gaining formed.1 scopes fuel isTop known
      simp only [Stmt.resolveAll, interpret]
      rw [Stmt.declaredNames_cons, Result.meets_andThen_iff]
      generalize execute fuel (first.resolve scopes) machine = result at met framedFirst
      cases result with
      | ok completion middle =>
          have gained : middle.globalNames = _ := met
          have later := ih formed.2 (first.extend scopes) (framedFirst.current.trans isTop)
            (Nat.lt_of_lt_of_le known framedFirst.heap.next)
          simp only [Result.Meets]
          rw [gaining, gained, Set.union_assoc] at later
          exact later
      | error problem after | fault reason after =>
          have gained : after.globalNames ⊆ _ := met
          refine gained.trans (Set.union_subset_union_right _ ?_)
          exact Set.subset_union_left
      | exhausted => trivial

end Machine

namespace Session

open Machine

/-- A source that is run is either interpreted or leaves the machine alone. -/
theorem run_machine {session after : Session} {fuel : Nat} {source : Text}
    (left : (session.run fuel source).session? = some after) :
    after.machine = session.machine ∨ ∃ program, Source.Accepts source program ∧
      (interpret fuel (Stmt.resolveProgram program)
        (session.machine.resolve (Stmt.resolveProgram program))).machine? = some after.machine := by
  by_cases accepted : session.hadError = false ∧ ∃ program, Source.Accepts source program
  · obtain ⟨clean, program, accepts⟩ := accepted
    obtain ⟨logged, resembles, ran⟩ := run_of_accepts fuel clean accepts
    refine .inr ⟨program, accepts, ?_⟩
    simp only [ran, execute, onMachine, resembles.machine] at left
    generalize interpret fuel (Stmt.resolveProgram program) _ = result at left
    cases result <;> cases left <;> rfl
  · obtain ⟨rejected, machine, done | ⟨reason, fault⟩⟩ := run_of_not_accepts fuel accepted
    · rw [done] at left
      cases left
      exact .inl machine
    · rw [fault] at left
      cases left
      exact .inl machine

theorem evaluate_machine {session after : Session} {fuel : Nat} {source : Text}
    (left : (session.evaluate fuel source).session? = some after) :
    after.machine = session.machine ∨ ∃ expr : Expr Unit,
      (Machine.evaluate fuel (expr.resolve []) session.machine).machine? = some after.machine := by
  by_cases accepted : session.hadError = false ∧
      ∃ expr, Source.expression source = { diagnostics := [], result := .ok (some expr) }
  · obtain ⟨clean, expr, parsed⟩ := accepted
    refine .inr ⟨expr, ?_⟩
    rw [evaluate_of_accepts fuel clean parsed] at left
    generalize Machine.evaluate fuel (expr.resolve []) session.machine = result at left
    cases result <;> cases left <;> rfl
  · obtain ⟨failure, done⟩ | ⟨reason, fault⟩ := evaluate_of_not_accepts fuel accepted
    · rw [done] at left
      cases left
      exact .inl (reportAll_machine ..)
    · rw [fault] at left
      cases left
      exact .inl (reportAll_machine ..)

/-- Whatever a step does, the heap only grows, and of the older environments only the globals. -/
theorem Step.perform_extends {session after : Session} {fuel : Nat} {step : Step}
    (rests : session.machine.AtRest) (performed : step.perform fuel session = some after) :
    Heap.Extends (· = globals) session.machine.heap after.machine.heap := by
  cases step with
  | run source =>
      obtain same | ⟨program, _, left⟩ := run_machine performed
      · exact same ▸ .refl _ _
      · exact rests.current ▸ ((interpret_growing fuel _ _).of_machine? left).heap
  | evaluate source =>
      obtain same | ⟨expr, left⟩ := evaluate_machine performed
      · exact same ▸ .refl _ _
      · exact ((evaluate_steady fuel _ _).of_machine? left).weaken.heap
  | check source => exact (check_analyses performed).machine ▸ .refl _ _
  | parse source => exact (parse_analyses performed).machine ▸ .refl _ _
  | reset | setCallLimit limit =>
      cases performed
      exact .refl _ _
  | defineNative arity native =>
      cases performed
      exact .define session.machine.heap globals native.name _

theorem Reached.globals_known {session : Session} (reached : session.Reached) :
    globals < session.machine.heap.next := by
  induction reached with
  | start fresh => exact fresh ▸ Nat.zero_lt_one
  | step fuel step reached performed ih =>
      exact Nat.lt_of_lt_of_le ih (Step.perform_extends reached.invariant.1 performed).next

/--
Locals never leak into the globals. No step takes a name from the globals. A source that is run adds
at most the names that it declares at its top, however it ends, and all of them if it is accepted
and no error stops it. An expression that is evaluated adds none.
-/
theorem Reached.globals_gain_declarations {session : Session} (reached : session.Reached) :
    (∀ (fuel : Nat) (step : Step) (after : Session), step.perform fuel session = some after →
      session.machine.globalNames ⊆ after.machine.globalNames) ∧
    (∀ (fuel : Nat) (source : Text) (after : Session),
      (session.run fuel source).session? = some after →
      ∃ gained ⊆ Source.declaredNames source,
        after.machine.globalNames = session.machine.globalNames ∪ gained) ∧
    (∀ (fuel : Nat) (source : Text) (resolved : List ResolvedStmt) (checked after : Session),
      session.check source = .done (some resolved) checked →
      session.run fuel source = .done () after → after.runtimeErrors = session.runtimeErrors →
      after.machine.globalNames = session.machine.globalNames ∪ Source.declaredNames source) ∧
    ∀ (fuel : Nat) (source : Text) (after : Session),
      (session.evaluate fuel source).session? = some after →
      after.machine.globalNames = session.machine.globalNames := by
  have rests := reached.invariant.1
  have known := reached.globals_known
  have gains : ∀ (fuel : Nat) {source : Text} {program : List (Stmt Unit)},
      Source.Accepts source program →
      (interpret fuel (Stmt.resolveProgram program)
        (session.machine.resolve (Stmt.resolveProgram program))).Meets
        (gaining (Source.declaredNames source) session.machine) := by
    intro fuel source program accepts
    rw [accepts.declaredNames]
    exact interpret_gaining accepts.acceptedAll.formed [] fuel rests.current known
  have kept : ∀ (fuel : Nat) (step : Step) (after : Session),
      step.perform fuel session = some after →
      session.machine.globalNames ⊆ after.machine.globalNames := by
    intro fuel step after performed name bound
    rw [mem_globalNames_iff] at bound ⊢
    exact (Step.perform_extends rests performed).kept globals name bound
  refine ⟨kept, ?_, ?_, ?_⟩
  · intro fuel source after left
    refine ⟨Source.declaredNames source ∩ after.machine.globalNames, Set.inter_subset_left, ?_⟩
    have within : after.machine.globalNames ⊆
        session.machine.globalNames ∪ Source.declaredNames source := by
      obtain same | ⟨program, accepts, interpreted⟩ := run_machine left
      · rw [same]
        exact Set.subset_union_left
      · exact gaining_subset (gains fuel accepts) interpreted
    rw [Set.union_inter_distrib_left,
      Set.union_eq_self_of_subset_left (kept fuel (.run source) _ left)]
    exact (Set.inter_eq_self_of_subset_right within).symm
  · intro fuel source resolved checked after accepted ended calm
    obtain ⟨clean, _, program, accepts, _⟩ := accepts_of_check accepted
    have met := gains fuel accepts
    rw [(interpret_of_done clean accepts ended (calm ▸ Nat.le_refl _)).1] at met
    exact met
  · intro fuel source after left
    obtain same | ⟨expr, evaluated⟩ := evaluate_machine left
    · rw [same]
    · exact ((evaluate_steady fuel _ _).of_machine? evaluated).globalNames_eq known

/-- A block with a function in it works on a global variable, and then a name is missing. -/
def sealed : Text :=
  ("var a = 1; \x7b var hidden = 2; fun inner(p) \x7b var deep = p; a = deep; \x7d " : Text) ++
    ("inner(hidden); \x7d fun f() \x7b return a; \x7d f(missing); var late = 1;" : Text)

theorem Reached.sealed_gains_declarations :
    ∃ after : Session, (Session.start fun _ => 0).run 40 sealed = .done () after ∧
      after.runtimeErrors.map (·.mishap) = [.undefinedVariable "missing"] ∧
      ("f" : Text) ∈ after.machine.globalNames ∧ ("late" : Text) ∉ after.machine.globalNames ∧
      (∀ name ∈ ["hidden", "inner", "p", "deep"],
        Text.ofString name ∉ after.machine.globalNames) ∧
      ∀ fuel later, (after.evaluate fuel "f()").session? = some later →
        later.machine.globalNames = after.machine.globalNames := by
  have runs : ((Session.start fun _ => 0).run 40 sealed).passes
      (fun _ session => session.runtimeErrors.map (·.mishap) == [.undefinedVariable "missing"] &&
        session.machine.heap.binds globals "f" && !session.machine.heap.binds globals "late") =
      true := by decide +kernel
  have inside : ∀ name ∈ ["hidden", "inner", "p", "deep"],
      (Source.program sealed).result.toOption.all (fun program =>
        program.all fun stmt => stmt.declaredName? != some (Text.ofString name)) = true ∧
      (Session.start fun _ => 0).machine.heap.binds globals (Text.ofString name) = false := by
    decide +kernel
  obtain ⟨_, after, done, tested⟩ := Outcome.passes_iff.mp runs
  simp only [Bool.and_eq_true, beq_iff_eq, Bool.not_eq_true', ← Bool.not_eq_true,
    ← mem_globalNames_iff] at tested
  obtain ⟨⟨failed, hasF⟩, notLate⟩ := tested
  have started : (Session.start fun _ => 0).Reached := .start rfl rfl rfl rfl rfl
  have ran : (Step.run sealed).perform 40 (Session.start fun _ => 0) = some after := by
    rw [Step.perform, done, Outcome.session?]
  refine ⟨after, done, failed, hasF, notLate, fun name member bound => ?_, ?_⟩
  · obtain ⟨gained, own, same⟩ := started.globals_gain_declarations.2.1 40 sealed after ran
    obtain ⟨notOwn, notBefore⟩ := inside name member
    rw [same] at bound
    obtain before | gain := bound
    · exact Bool.eq_false_iff.mp notBefore (mem_globalNames_iff.mp before)
    · obtain ⟨program, parsed, stmt, stands, declares⟩ := own gain
      rw [parsed] at notOwn
      have differs := List.all_eq_true.mp notOwn stmt stands
      simp [declares] at differs
  · intro fuel later evaluated
    exact (started.step 40 _ ran).globals_gain_declarations.2.2.2 fuel "f()" later evaluated

end Session

end Loxley
