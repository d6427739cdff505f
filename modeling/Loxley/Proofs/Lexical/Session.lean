import Loxley.Proofs.Lexical.Simulation
import Loxley.Proofs.SessionSafety

/-!
# Sessions under lexical scoping

Entering sources one after the other into a session shows the same as running them one after the
other in the lexical semantics: the same output and errors, the same values of expressions and the
same globals, with functions compared without their code.
-/

set_option autoImplicit false

namespace Loxley

/-- A source entered into a session: a program to run, or an expression to evaluate. -/
inductive Input where
  | run (source : Text)
  | evaluate (source : Text)

/-- An input without diagnostics, in which no local variable is assigned in its own initializer. -/
def Input.Accepted : Input → Prop
  | run source => ∃ program, Source.Accepts source program ∧ Stmt.assignsOwnAll false program = false
  | evaluate source =>
    ∃ expr, Source.expression source = { diagnostics := [], result := .ok (some expr) }

/-- Whether an input is accepted. -/
def Input.isAccepted : Input → Bool
  | run source =>
    match Source.program source with
    | { diagnostics := [], result := .ok program } =>
      (Stmt.programFaults program).isEmpty && !Stmt.assignsOwnAll false program
    | _ => false
  | evaluate source =>
    match Source.expression source with
    | { diagnostics := [], result := .ok (some _) } => true
    | _ => false

theorem Input.isAccepted_iff (input : Input) : input.isAccepted = true ↔ input.Accepted := by
  cases input with
  | run source =>
      constructor
      · intro accepted
        simp only [isAccepted] at accepted
        split at accepted
        · next program parsed =>
            obtain ⟨faultless, spares⟩ := Bool.and_eq_true_iff.mp accepted
            exact ⟨program, ⟨parsed, List.isEmpty_iff.mp faultless⟩, by simpa using spares⟩
        · cases accepted
      · rintro ⟨program, ⟨parsed, faultless⟩, spares⟩
        simp [isAccepted, parsed, faultless, spares]
  | evaluate source =>
      constructor
      · intro accepted
        simp only [isAccepted] at accepted
        split at accepted
        · next expr parsed => exact ⟨expr, parsed⟩
        · cases accepted
      · rintro ⟨expr, parsed⟩
        simp [isAccepted, parsed]

instance : DecidablePred Input.Accepted :=
  fun input => decidable_of_iff _ input.isAccepted_iff

namespace Session

/-- Enters one source; gives back the outcome of an expression. -/
def enter (fuel : Nat) (session : Session) : Input → Outcome (List (Except EvalFailure Value))
  | .run source => (session.run fuel source).andThen fun _ session => .done [] session
  | .evaluate source =>
    (session.evaluate fuel source).andThen fun given session => .done [given] session

/-- Enters sources in order, each with an amount of fuel of its own. -/
def enterAll : List (Nat × Input) → Session → Outcome (List (Except EvalFailure Value))
  | [], session => .done [] session
  | (fuel, input) :: rest, session =>
    (session.enter fuel input).andThen fun given session =>
    (enterAll rest session).andThen fun others session => .done (given ++ others) session

end Session

namespace Lexical

/-- A state with the errors that were reported in it. -/
structure Session where
  state : State
  runtimeErrors : List RuntimeError := []

namespace Session

/-- A session on which nothing has run. -/
def start (readings : Nat → Float) : Session where
  state := .start readings

/-- Enters one source that parses; nothing if the fuel does not suffice. -/
def enter (fuel : Nat) (session : Session) :
    Input → Option (List (Except RuntimeError Value) × Session)
  | .run source =>
    match (Source.program source).result with
    | .error _ => some ([], session)
    | .ok program =>
      match interpret fuel program session.state with
      | .ok _ state => some ([], { session with state })
      | .error problem state =>
        some ([], { state, runtimeErrors := session.runtimeErrors ++ [problem] })
      | .exhausted => none
  | .evaluate source =>
    match (Source.expression source).result with
    | .ok (some expr) =>
      match evaluate fuel [] expr session.state with
      | .ok value state => some ([.ok value], { session with state })
      | .error problem state => some ([.error problem], { session with state })
      | .exhausted => none
    | _ => some ([], session)

/-- Enters sources in order, each with an amount of fuel of its own. -/
def enterAll : List (Nat × Input) → Session → Option (List (Except RuntimeError Value) × Session)
  | [], session => some ([], session)
  | (fuel, input) :: rest, session =>
    (session.enter fuel input).bind fun (given, session) =>
    (enterAll rest session).map fun (others, session) => (given ++ others, session)

end Session

/-- Values that are the same up to the representation of functions, whose code has distances or not. -/
inductive Same : Loxley.Value → Value → Prop
  | plain {value : Loxley.Value} (isPlain : ∀ closure, value ≠ .function closure)
      (ours : ∀ thing, value ≠ .foreign thing) : Same value (.plain value)
  | function {closure : Loxley.Closure} {lexical : Closure} {scopes : Scopes}
      (identity : closure.identity = lexical.identity) (name : closure.name = lexical.name)
      (parameters : closure.parameters = lexical.parameters)
      (body : closure.body = Stmt.resolveAll scopes lexical.body) :
      Same (.function closure) (.function lexical)

/-- Expressions that evaluate to the same. -/
inductive SameResult :
    Except Loxley.Session.EvalFailure Loxley.Value → Except RuntimeError Value → Prop
  | value {value : Loxley.Value} {content : Value} (same : Same value content) :
      SameResult (.ok value) (.ok content)
  | error {problem : RuntimeError} : SameResult (.error (.runtime problem)) (.error problem)

/-- Sessions that show the same. -/
structure SameSession (session : Loxley.Session) (lexical : Session) : Prop where
  output : session.machine.output = lexical.state.output
  hadError : session.hadError = false
  diagnostics : session.diagnostics = []
  runtimeErrors : session.runtimeErrors = lexical.runtimeErrors
  globals : List.Forall₂ (fun binding entry => binding.1 = entry.1 ∧ Same binding.2 entry.2)
    session.machine.globalValues lexical.state.globalValues

/-- Sources that are entered with the same effect. -/
inductive SameOutcome :
    Outcome (List (Except Loxley.Session.EvalFailure Loxley.Value)) →
      Option (List (Except RuntimeError Value) × Session) → Prop
  | done {results : List (Except Loxley.Session.EvalFailure Loxley.Value)}
      {others : List (Except RuntimeError Value)} {session : Loxley.Session} {lexical : Session}
      (given : List.Forall₂ SameResult results others) (same : SameSession session lexical) :
      SameOutcome (.done results session) (some (others, lexical))
  | exhausted : SameOutcome .exhausted none

section Machines

variable {layout : Layout} {machine : Machine} {state : State}

theorem Alike.same {value : Loxley.Value} {content : Value}
    (alike : Alike layout machine.heap value content) : Same value content := by
  cases alike with
  | plain isPlain ours => exact .plain isPlain ours
  | function captured =>
      exact .function captured.identity captured.name captured.parameters
        captured.analysed.resolved

theorem Related.globalValues (related : Related layout machine state) :
    List.Forall₂ (fun binding entry => binding.1 = entry.1 ∧ Same binding.2 entry.2)
      machine.globalValues state.globalValues := by
  simp only [Machine.globalValues, Heap.contents, Heap.names_eq_map_bindings,
    Heap.lookup?_eq_lookup_bindings, State.globalValues, ← Bound.names related.globals]
  exact (Bound.contents related.globals _).imp fun _ _ here => ⟨here.1, here.2.same⟩

theorem related_start (readings : Nat → Float) :
    Related (fun _ _ => none) (Machine.start readings) (State.start readings) where
  rooted := Nat.zero_lt_one
  globals := .cons ⟨rfl, .plain (by simp [Machine.nextNative]) (by simp [Machine.nextNative])⟩ .nil
  locals := by simp
  apart := by simp
  depth := rfl
  callLimit := rfl
  closures := rfl
  natives := rfl
  output := rfl

/-- Outside of all scopes nothing more is needed to go on. -/
theorem Related.atTop (related : Related layout machine state) (ready : machine.Ready .valuesOnly []) :
    Stands layout machine state [] .top where
  ready := ready
  related := related
  sights := .top layout machine.heap machine.current
  isTop := by simp

theorem interpret_agrees (fuel : Nat) {program : List (Stmt Unit)}
    (related : Related layout machine state) (ready : machine.Ready .valuesOnly [])
    (accepted : Stmt.AcceptedAll false [] program)
    (spares : Stmt.assignsOwnAll false program = false) :
    Agrees layout (fun _ _ _ _ _ => True)
      (Machine.interpret fuel (Stmt.resolveAll [] program) machine)
      (interpret fuel program state) := by
  induction program generalizing layout machine state with
  | nil => exact .ok (.refl layout) related trivial
  | cons first rest ih =>
      obtain ⟨firstAccepted, restAccepted⟩ := accepted.of_cons
      obtain ⟨firstSpares, restSpares⟩ := Bool.or_eq_false_iff.mp spares
      rw [first.extend_nil] at restAccepted
      rw [Stmt.resolveAll, Machine.interpret, interpret, first.extend_nil]
      refine ((simulates fuel).execute _ _ _ false [] .top first (related.atTop ready)
        firstAccepted firstSpares).andThen fun later _ _ middle next ran _ middleRelated _ => ?_
      have met := ready.execute firstAccepted fuel
      rw [ran] at met
      obtain ⟨⟨middleSound, _⟩, follows⟩ := met
      exact ih middleRelated (ready.followTop middleSound follows) restAccepted restSpares

end Machines

/-- A session and its lexical counterpart, between two sources. -/
structure Corresponds (layout : Layout) (session : Loxley.Session) (lexical : Session) : Prop where
  related : Related layout session.machine lexical.state
  ready : session.machine.Ready .valuesOnly []
  clean : session.hadError = false
  diagnostics : session.diagnostics = []
  runtimeErrors : session.runtimeErrors = lexical.runtimeErrors

namespace Corresponds

variable {layout : Layout} {session : Loxley.Session} {lexical : Session}

theorem start (readings : Nat → Float) :
    Corresponds (fun _ _ => none) (.start readings) (.start readings) where
  related := related_start readings
  ready := .atTop (Machine.sound_start .valuesOnly readings) rfl
  clean := rfl
  diagnostics := rfl
  runtimeErrors := rfl

theorem same (corresponds : Corresponds layout session lexical) : SameSession session lexical where
  output := corresponds.related.output
  hadError := corresponds.clean
  diagnostics := corresponds.diagnostics
  runtimeErrors := corresponds.runtimeErrors
  globals := corresponds.related.globalValues

/-- Entering one source keeps the correspondence, unless the fuel runs out on both sides. -/
theorem enter (corresponds : Corresponds layout session lexical) {input : Input}
    (accepted : input.Accepted) (fuel : Nat) :
    (∃ results others after next later, session.enter fuel input = .done results after ∧
        lexical.enter fuel input = some (others, next) ∧
        List.Forall₂ SameResult results others ∧ Corresponds later after next) ∨
      session.enter fuel input = .exhausted ∧ lexical.enter fuel input = none := by
  cases input with
  | run source =>
      obtain ⟨program, accepts, spares⟩ := accepted
      obtain ⟨logged, resembles, ran⟩ :=
        Loxley.Session.run_of_accepts fuel corresponds.clean accepts
      have ready := corresponds.ready.resolve (Stmt.resolveProgram program)
      have agreed := interpret_agrees fuel
        (corresponds.related.resolve (Stmt.resolveProgram program)) ready accepts.acceptedAll spares
      have met := ready.interpret accepts.acceptedAll fuel
      simp only [Loxley.Session.enter, Session.enter, ran, Loxley.Session.execute,
        Loxley.Session.onMachine, resembles.machine, Stmt.resolveProgram, accepts.parsed]
        at agreed met ⊢
      generalize Machine.interpret fuel (Stmt.resolveAll [] program) _ = result at agreed met
      generalize interpret fuel program lexical.state = other at agreed
      cases agreed with
      | ok grown related _ =>
          refine .inl ⟨[], [], _, _, _, rfl, rfl, .nil, related, met.1.2, ?_, ?_, ?_⟩
          · exact resembles.hadError.trans corresponds.clean
          · exact resembles.diagnostics.trans corresponds.diagnostics
          · exact resembles.runtimeErrors.trans corresponds.runtimeErrors
      | error grown related =>
          refine .inl ⟨[], [], _, _, _, rfl, rfl, .nil, related, ready.followTop met.1 met.2, ?_, ?_,
            ?_⟩
          · exact resembles.hadError.trans corresponds.clean
          · exact resembles.diagnostics.trans corresponds.diagnostics
          · exact congrArg (· ++ [_]) (resembles.runtimeErrors.trans corresponds.runtimeErrors)
      | exhausted => exact .inr ⟨rfl, rfl⟩
  | evaluate source =>
      obtain ⟨expr, parsed⟩ := accepted
      have admitted := Source.acceptedExpression parsed
      have agreed := (simulates fuel).evaluate _ _ _ [] .top none expr
        (corresponds.related.atTop corresponds.ready) (Scopes.initializes_none []) admitted
        expr.spares_none
      have ready := corresponds.ready
      have met := ready.evaluate (Scopes.initializes_none []) admitted fuel
      simp only [Loxley.Session.enter, Session.enter, parsed,
        Loxley.Session.evaluate_of_accepts fuel corresponds.clean parsed]
      simp only [Scopes.during_none, Place.names] at agreed met
      generalize Machine.evaluate fuel (expr.resolve []) session.machine = result at agreed met
      generalize evaluate fuel [] expr lexical.state = other at agreed
      cases agreed with
      | ok grown related alike =>
          exact .inl ⟨_, _, _, _, _, rfl, rfl, .cons (.value alike.same) .nil, related,
            ready.followTop met.1.1 met.2, corresponds.clean, corresponds.diagnostics,
            corresponds.runtimeErrors⟩
      | error grown related =>
          exact .inl ⟨_, _, _, _, _, rfl, rfl, .cons .error .nil, related,
            ready.followTop met.1 met.2, corresponds.clean, corresponds.diagnostics,
            corresponds.runtimeErrors⟩
      | exhausted => exact .inr ⟨rfl, rfl⟩

theorem enterAll (corresponds : Corresponds layout session lexical) {inputs : List (Nat × Input)}
    (accepted : ∀ input ∈ inputs, input.2.Accepted) :
    SameOutcome (session.enterAll inputs) (lexical.enterAll inputs) := by
  induction inputs generalizing layout session lexical with
  | nil => exact .done .nil corresponds.same
  | cons input rest ih =>
      obtain ⟨fuel, input⟩ := input
      simp only [Loxley.Session.enterAll, Session.enterAll]
      rcases corresponds.enter (accepted (fuel, input) List.mem_cons_self) fuel with
        ⟨results, others, after, next, later, done, found, given, kept⟩ | ⟨exhausted, none⟩
      · rw [done, found]
        have entered := ih kept fun input member => accepted input (List.mem_cons_of_mem _ member)
        simp only [Outcome.andThen, Option.bind_some]
        generalize after.enterAll rest = outcome at entered
        generalize next.enterAll rest = other at entered
        cases entered with
        | done givenLater same => exact .done (List.rel_append given givenLater) same
        | exhausted => exact .exhausted
      · rw [exhausted, none]
        exact .exhausted

end Corresponds

/--
Recorded distances implement lexical scoping: whatever sources without diagnostics are entered into
a new session, they have the same effect as in the semantics without distances, provided no local
variable is assigned in its own initializer.
-/
theorem sessions_scope_lexically (readings : Nat → Float) (inputs : List (Nat × Input))
    (accepted : ∀ input ∈ inputs, input.2.Accepted) :
    SameOutcome ((Loxley.Session.start readings).enterAll inputs)
      ((Session.start readings).enterAll inputs) :=
  (Corresponds.start readings).enterAll accepted

/--
A function that reads a global keeps to it when a local of the same name comes up next to it, and
functions that share a local still do so when later inputs call them.
-/
def shadowing : List (Nat × Input) :=
  [(40, .run ("var a = \"global\"; var set; var get;" ++
      "\x7b fun show() \x7b print a; \x7d show(); var a = \"local\"; show();" ++
      "  fun put(b) \x7b a = b; \x7d fun take() \x7b return a; \x7d set = put; get = take; \x7d" : String)),
    (40, .run "set(\"changed\"); print a; print get();"),
    (40, .evaluate "get() + missing")]

theorem shadowing_scopes_lexically :
    (∀ input ∈ shadowing, input.2.Accepted) ∧
      ((Loxley.Session.start fun _ => 0).enterAll shadowing).passes
        (fun results session => results.length == 1 && session.machine.output ==
          #[("global\n" : Text), "global\n", "global\n", "changed\n"]) = true ∧
      SameOutcome ((Loxley.Session.start fun _ => 0).enterAll shadowing)
        ((Session.start fun _ => 0).enterAll shadowing) := by
  have accepted : ∀ input ∈ shadowing, input.2.Accepted := by decide +kernel
  exact ⟨accepted, by decide +kernel, sessions_scope_lexically _ shadowing accepted⟩

end Lexical

end Loxley
