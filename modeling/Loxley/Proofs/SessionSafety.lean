import Loxley.Proofs.Safety
import Loxley.Proofs.Session

/-!
# Sessions do not go wrong

On every session that a host can build up step by step, sources without diagnostics run without a
fault, as long as the host hands only values of the language to functions. It does so by itself if
its functions give only values of the language. Every piece of work that such a run visits is one
that the interpreter handles; in particular, every local variable that it reads is bound at exactly
the recorded distance.
-/

set_option autoImplicit false

namespace Loxley

namespace Machine

variable {policy : HostPolicy} {machine : Machine}

/-- A value that is to be found on a machine, or a thing that the host hands on. -/
def Has (policy : HostPolicy) (machine : Machine) : Value → Prop
  | .function closure =>
    ∃ environment name, machine.heap.lookup? environment name = some (.function closure)
  | .native reference => reference.identity < machine.natives.size
  | .foreign thing => policy.handsOn thing
  | .nil | .bool _ | .number _ | .string _ => True

/-- Host functions are added to a sound machine if they hand on nothing that it does not know. -/
theorem Sound.defineNative (sound : machine.Sound policy) {arity : Int} {native : Native}
    (held : Value → Prop) (heldKnown : ∀ value, held value → machine.Knows policy value)
    (honest : HonestCode policy.answers
      (fun value => held value ∨ (machine.defineNative arity native).Has policy value) native.act) :
    (machine.defineNative arity native).Sound policy ∧
      ∀ value, machine.Knows policy value →
        (machine.defineNative arity native).Knows policy value := by
  have extended := Heap.Extends.define machine.heap globals native.name (machine.nextNative arity)
  have grown : (machine.defineNative arity native).hostCode =
      machine.hostCode.push (native.name, native.act) := by
    simp [hostCode, Machine.defineNative, addNative, defineGlobal]
  have kept : ∀ value, machine.Knows policy value →
      (machine.defineNative arity native).Knows policy value := by
    intro value known
    have wider := known.extend extended
    cases value with
    | native reference =>
        simp only [Knows, Value.Sound, grown, Array.size_push]
        exact Nat.lt_succ_of_lt wider
    | nil | bool _ | number _ | string _ | function _ | foreign _ => exact wider
  have values : ∀ environment name value,
      (machine.defineNative arity native).heap.lookup? environment name = some value →
        (machine.defineNative arity native).Knows policy value := by
    intro environment name value found
    simp only [Machine.defineNative, addNative, defineGlobal, Heap.lookup?_define] at found
    split at found
    · cases found
      simp only [Knows, nextNative, Value.Sound, grown, Array.size_push]
      simp [hostCode]
    · exact kept value (sound.values environment name value found)
  have has : ∀ value, (machine.defineNative arity native).Has policy value →
      (machine.defineNative arity native).Knows policy value := by
    intro value present
    cases value with
    | function closure =>
        obtain ⟨environment, name, found⟩ := present
        exact values environment name _ found
    | native reference => simpa [Knows, Value.Sound, hostCode, Has] using present
    | foreign thing => exact present
    | nil | bool _ | number _ | string _ => trivial
  refine ⟨⟨Nat.lt_of_lt_of_le sound.rooted extended.next, values,
    fun event member => (sound.told event member).imp kept, ?_⟩, kept⟩
  intro code member
  rw [grown, Array.mem_push] at member
  rcases member with old | rfl
  · exact (sound.host code old).imp kept
  · exact honest.imp fun value known =>
      known.elim (fun inHand => kept value (heldKnown value inHand)) (has value)

theorem honest_clock {answers : Foreign → Prop} {good : Value → Prop}
    (numbers : ∀ number, good (.number number)) (readings : Nat → Float) :
    HonestCode answers good (clock readings).act :=
  fun _ implies _ _ _ _ _ => .inl (implies _ (numbers _))

theorem sound_start (policy : HostPolicy) (readings : Nat → Float) :
    (start readings).Sound policy := by
  have empty : Machine.Sound policy { heap := ({} : Heap).create none } := by
    refine ⟨Nat.zero_lt_one, ?_, fun _ none => absurd none List.not_mem_nil, ?_⟩
    · intro environment name value found
      rw [Heap.lookup?_create] at found
      simp [Heap.lookup?] at found
    · intro code member
      simp [hostCode] at member
  exact (empty.defineNative (fun _ => False) (fun _ none => none.elim)
    (honest_clock (fun _ => .inr trivial) readings)).1

theorem Ready.resolve {scopes : Scopes} (ready : machine.Ready policy scopes)
    (program : List ResolvedStmt) : (machine.resolve program).Ready policy scopes :=
  ⟨⟨ready.sound.rooted, ready.sound.values, ready.sound.told, ready.sound.host⟩, ready.hosted⟩

end Machine

namespace Session

open Machine

/--
The sessions that a host can build up, with the values that evaluations have put into its hands. It
may keep these for its functions, which work with what the host knows and with what is to be found
on the machine. Its functions apply functions to the right number of arguments, as often as they
like, and go on from whatever these give back.
-/
inductive Reachable (policy : HostPolicy) : List Value → Session → Prop
  | start {session : Session} {readings : Nat → Float}
      (fresh : session.machine = Machine.start readings) : Reachable policy [] session
  | run {held : List Value} {session after : Session} {fuel : Nat} {source : Text}
      (reached : Reachable policy held session) (done : session.run fuel source = .done () after) :
      Reachable policy held after
  | runFault {held : List Value} {session after : Session} {fuel : Nat} {source : Text}
      {reason : Fault} (reached : Reachable policy held session)
      (fault : session.run fuel source = .fault reason after) : Reachable policy held after
  | evaluate {held : List Value} {session after : Session} {fuel : Nat} {source : Text}
      {result : Except EvalFailure Value} (reached : Reachable policy held session)
      (done : session.evaluate fuel source = .done result after) :
      Reachable policy (result.toOption.toList ++ held) after
  | evaluateFault {held : List Value} {session after : Session} {fuel : Nat} {source : Text}
      {reason : Fault} (reached : Reachable policy held session)
      (fault : session.evaluate fuel source = .fault reason after) : Reachable policy held after
  | keep {held : List Value} {session : Session} (reached : Reachable policy held session)
      {value : Value} (member : value ∈ held) :
      Reachable policy held (session.onMachine (Machine.tell { value }))
  | reset {held : List Value} {session : Session} (reached : Reachable policy held session) :
      Reachable policy held session.reset
  | setCallLimit {held : List Value} {session : Session} (reached : Reachable policy held session)
      (limit : Int) : Reachable policy held (session.onMachine (Machine.setCallLimit limit))
  | defineNative {held : List Value} {session : Session} (reached : Reachable policy held session)
      (arity : Int) (native : Native)
      (honest : HonestCode policy.answers
        (fun value => value ∈ held ∨ (session.machine.defineNative arity native).Has policy value)
        native.act) :
      Reachable policy held (session.onMachine (Machine.defineNative arity native))

variable {policy : HostPolicy}

/-- A later session on which a source can run, and that knows everything that was known before. -/
structure Continues (policy : HostPolicy) (session after : Session) : Prop where
  ready : after.machine.Ready policy []
  kept : ∀ value, session.machine.Knows policy value → after.machine.Knows policy value

theorem continues_of_eq {session after : Session} (ready : session.machine.Ready policy [])
    (same : after.machine = session.machine) : session.Continues policy after :=
  ⟨same ▸ ready, fun _ known => same ▸ known⟩

theorem continues_of_follows {session after : Session} {growing : EnvironmentId → Prop}
    (ready : session.machine.Ready policy []) (afterSound : after.machine.Sound policy)
    (follows : Follows growing session.machine after.machine) : session.Continues policy after :=
  ⟨ready.followTop afterSound follows,
    fun _ known => known.follow follows⟩

theorem Continues.holding {session after : Session} {held : List Value}
    (continues : session.Continues policy after)
    (known : ∀ value ∈ held, session.machine.Knows policy value) :
    after.machine.Ready policy [] ∧ ∀ value ∈ held, after.machine.Knows policy value :=
  ⟨continues.ready, fun value member => continues.kept value (known value member)⟩

/--
The outcome is a session on which work can continue, with a value of which something holds or with
one of some faults.
-/
def Leaves {α : Type} (policy : HostPolicy) (before : Session) (faults : Fault → Prop)
    (holds : α → Session → Prop) : Outcome α → Prop
  | .done value after => before.Continues policy after ∧ holds value after
  | .fault reason after => before.Continues policy after ∧ faults reason
  | .exhausted => True

theorem Leaves.imp {α : Type} {before : Session} {strong weak : Fault → Prop}
    {holds : α → Session → Prop} {outcome : Outcome α}
    (leaves : Leaves policy before strong holds outcome)
    (implies : ∀ reason, strong reason → weak reason) : Leaves policy before weak holds outcome := by
  cases outcome with
  | done value after => exact leaves
  | fault reason after => exact ⟨leaves.1, implies reason leaves.2⟩
  | exhausted => trivial

/-- A source without diagnostics stops the interpreter at most at a thing of the host. -/
theorem run_leaves_of_accepts {session : Session} (ready : session.machine.Ready policy [])
    {source : Text} {program : List (Stmt Unit)} (clean : session.hadError = false)
    (accepts : Source.Accepts source program) (fuel : Nat) :
    Leaves policy session (Fault.Foreign policy) (fun _ _ => True) (session.run fuel source) := by
  obtain ⟨logged, resembles, ran⟩ := run_of_accepts fuel clean accepts
  have met := (ready.resolve (Stmt.resolveProgram program)).interpret accepts.acceptedAll fuel
  rw [ran]
  simp only [execute, onMachine, resembles.machine, Stmt.resolveProgram] at met ⊢
  generalize interpret fuel (Stmt.resolveAll [] program) _ = result at met
  have continues : ∀ {after : Session}, after.machine.Sound policy →
      Follows (· = session.machine.current)
        (session.machine.resolve (Stmt.resolveAll [] program)) after.machine →
      session.Continues policy after := by
    intro after afterSound follows
    refine ⟨(ready.resolve _).followTop afterSound follows, ?_⟩
    intro value known
    -- What is known does not depend on the distances of the program.
    have atStart : (session.machine.resolve (Stmt.resolveAll [] program)).Knows policy value := known
    exact atStart.follow follows
  cases result with
  | ok value after => exact ⟨continues met.1.1 met.2, trivial⟩
  | error problem after => exact ⟨continues met.1 met.2, trivial⟩
  | fault reason after => exact ⟨continues met.1.1 met.2, met.1.2⟩
  | exhausted => trivial

theorem evaluate_leaves_of_accepts {session : Session} (ready : session.machine.Ready policy [])
    {source : Text} {expr : Expr Unit} (clean : session.hadError = false)
    (parsed : Source.expression source = { diagnostics := [], result := .ok (some expr) })
    (fuel : Nat) :
    Leaves policy session (Fault.Foreign policy)
      (fun result after => ∀ value, result = .ok value → after.machine.Knows policy value)
      (session.evaluate fuel source) := by
  have met := ready.evaluate (Scopes.initializes_none []) (Source.acceptedExpression parsed) fuel
  rw [evaluate_of_accepts fuel clean parsed]
  simp only [Scopes.during_none] at met
  generalize Machine.evaluate fuel (expr.resolve []) session.machine = result at met
  cases result with
  | ok value after =>
      refine ⟨continues_of_follows ready met.1.1 met.2, ?_⟩
      rintro _ ⟨⟩
      exact met.1.2
  | error problem after => exact ⟨continues_of_follows ready met.1 met.2, nofun⟩
  | fault reason after => exact ⟨continues_of_follows ready met.1.1 met.2, met.1.2⟩
  | exhausted => trivial

theorem run_leaves {session : Session} (ready : session.machine.Ready policy []) (fuel : Nat)
    (source : Text) :
    Leaves policy session (fun _ => True) (fun _ _ => True) (session.run fuel source) := by
  by_cases accepted : session.hadError = false ∧ ∃ program, Source.Accepts source program
  · obtain ⟨clean, program, accepts⟩ := accepted
    exact (run_leaves_of_accepts ready clean accepts fuel).imp fun _ _ => trivial
  · obtain ⟨after, machine, done | ⟨reason, fault⟩⟩ := run_of_not_accepts fuel accepted
    · rw [done]
      exact ⟨continues_of_eq ready machine, trivial⟩
    · rw [fault]
      exact ⟨continues_of_eq ready machine, trivial⟩

theorem evaluate_leaves {session : Session} (ready : session.machine.Ready policy []) (fuel : Nat)
    (source : Text) :
    Leaves policy session (fun _ => True)
      (fun result after => ∀ value, result = .ok value → after.machine.Knows policy value)
      (session.evaluate fuel source) := by
  by_cases accepted : session.hadError = false ∧
      ∃ expr, Source.expression source = { diagnostics := [], result := .ok (some expr) }
  · obtain ⟨clean, expr, parsed⟩ := accepted
    exact (evaluate_leaves_of_accepts ready clean parsed fuel).imp fun _ _ => trivial
  · have continued := continues_of_eq ready
      (session.reportAll_machine (Source.expression source).diagnostics)
    obtain ⟨failure, done⟩ | ⟨reason, fault⟩ := evaluate_of_not_accepts fuel accepted
    · rw [done]
      exact ⟨continued, nofun⟩
    · rw [fault]
      exact ⟨continued, trivial⟩

/-- On every session within reach a source can run, and the host holds only values that it knows. -/
theorem Reachable.ready {held : List Value} {session : Session}
    (reached : Reachable policy held session) :
    session.machine.Ready policy [] ∧ ∀ value ∈ held, session.machine.Knows policy value := by
  induction reached with
  | start fresh =>
      rw [fresh]
      exact ⟨.atTop (sound_start policy _) rfl, fun _ none => absurd none List.not_mem_nil⟩
  | @run _ _ _ fuel source _ done ih =>
      have continued := run_leaves ih.1 fuel source
      rw [done] at continued
      exact continued.1.holding ih.2
  | @runFault _ _ _ fuel source _ _ fault ih =>
      have continued := run_leaves ih.1 fuel source
      rw [fault] at continued
      exact continued.1.holding ih.2
  | @evaluate _ _ _ fuel source result _ done ih =>
      have continued := evaluate_leaves ih.1 fuel source
      rw [done] at continued
      obtain ⟨ready, known⟩ := continued.1.holding ih.2
      refine ⟨ready, fun value member => ?_⟩
      rcases List.mem_append.mp member with given | older
      · cases result with
        | error failure => cases given
        | ok given' =>
            cases List.mem_singleton.mp given
            exact continued.2 value rfl
      · exact known value older
  | @evaluateFault _ _ _ fuel source _ _ fault ih =>
      have continued := evaluate_leaves ih.1 fuel source
      rw [fault] at continued
      exact continued.1.holding ih.2
  | keep _ member ih =>
      obtain ⟨ready, known⟩ := ih
      exact ⟨⟨ready.sound.tell (.inl (known _ member)), ready.hosted⟩, known⟩
  | reset _ ih => exact ih
  | setCallLimit _ limit ih =>
      obtain ⟨ready, known⟩ := ih
      exact ⟨⟨⟨ready.sound.rooted, ready.sound.values, ready.sound.told, ready.sound.host⟩,
        ready.hosted⟩, known⟩
  | defineNative _ arity native honest ih =>
      obtain ⟨ready, known⟩ := ih
      obtain ⟨afterSound, kept⟩ := ready.sound.defineNative (· ∈ _) known honest
      exact ⟨.atTop afterSound (ready.hosted.isTop.mp rfl),
        fun value member => kept value (known value member)⟩

end Session

/--
What the interpreter relies on at a visit. Operators are those that their tokens denote, a local
variable is bound in exactly the environment at its distance when it is read, the chain of
environments reaches that far when it is assigned, and functions are applied only with the right
number of arguments.
-/
def Visit.Handled (visit : Visit) : Prop :=
  match visit.task with
  | .evaluate _ (.unary op token _) => UnaryOp.ofKind? token.kind = some op
  | .evaluate _ (.binary op token _ _) => Connective.ofKind? token.kind = some (.binary op)
  | .evaluate _ (.logical op token _ _) => Connective.ofKind? token.kind = some (.logical op)
  | .evaluate _ (.ident name (some distance)) =>
    ∃ owner value, visit.machine.heap.ancestor? visit.machine.current distance = some owner ∧
      visit.machine.heap.lookup? owner name.lexeme = some value
  | .assign _ _ (some distance) _ =>
    ∃ owner, visit.machine.heap.ancestor? visit.machine.current distance = some owner
  | .apply callee arguments => callee.arity? = some (arguments.length : Int)
  | _ => True

theorem Visit.Ready.handled {policy : HostPolicy} {visit : Visit}
    {post : Post visit.task.Answer} (ready : Visit.Ready policy visit post) : visit.Handled := by
  cases ready with
  | call | execute | executeAll | evaluateAll | interpret => trivial
  | apply _ _ _ arity => exact arity
  | @assign scopes pending name value machine ready fresh known =>
      simp only [Handled]
      cases found : (scopes.during pending).distance? name.lexeme with
      | none => trivial
      | some distance => exact ready.hosted.ancestor?_during found
  | @evaluate scopes pending source machine ready fresh accepted =>
      cases source with
      | literal | group | assign | call => trivial
      | unary op token operand => exact accepted.formed.1
      | binary op token left right => exact accepted.formed.1
      | logical op token left right => exact accepted.formed.1
      | ident name reference =>
          simp only [Handled, Expr.resolve]
          cases found : (scopes.during pending).distance? name.lexeme with
          | none => trivial
          | some distance =>
              obtain ⟨owner, reached, bound⟩ :=
                ready.hosted.covers.of_pendingRead_eq_nil accepted.faultless found
              obtain ⟨value, held⟩ := Option.isSome_iff_exists.mp bound
              exact ⟨owner, value, reached, held⟩

/-- A host function that hands what one function gives back on to another one. -/
def compose : Native where
  name := "compose"
  act _ _ arguments :=
    match arguments with
    | [first, second] =>
      if first.arity? = some 0 ∧ second.arity? = some 1 then
        .apply first [] fun _ reply =>
          if reply.error.isSome then .answer reply
          else .apply second [reply.value] fun _ reply => .answer reply
      else .answer {}
    | _ => .answer {}

/-- What was answered may be handed on if there is nothing amiss with any answer. -/
theorem honest_compose {answers : Foreign → Prop} {good : Value → Prop} (nilGood : good .nil)
    (things : ∀ thing, answers thing → good (.foreign thing)) :
    HonestCode answers good compose.act := by
  intro known implies calls told arguments _ argumentsKnown
  simp only [compose]
  split
  · next first second =>
      split
      · next arities =>
          refine ⟨argumentsKnown first (.head _), fun _ none => absurd none List.not_mem_nil,
            arities.1, fun later grows told reply _ replied => ?_⟩
          dsimp only
          split
          · exact replied
          · refine ⟨grows _ (argumentsKnown second (.tail _ (.head _))), fun argument member => ?_,
              arities.2, fun _ _ _ _ _ replied => replied⟩
            cases List.mem_singleton.mp member
            rcases replied with isKnown | ⟨thing, answered, isThing⟩
            · exact isKnown
            · rw [isThing]
              exact grows _ (implies _ (things thing answered))
      · exact .inl (implies _ nilGood)
  · exact .inl (implies _ nilGood)

/-- A host function that answers with an integer of the host. -/
def three : Native where
  name := "three"
  act _ _ _ := .answer { value := .foreign (.integer "int" 3) }

theorem honest_three {answers : Foreign → Prop} {good : Value → Prop}
    (integers : ∀ number, answers (.integer "int" number)) : HonestCode answers good three.act :=
  fun _ _ _ _ _ _ _ => .inr ⟨_, integers 3, rfl⟩

/-- The fault that an outcome is, if it is one. -/
def Outcome.fault? {α : Type} : Outcome α → Option Fault
  | .fault reason _ => some reason
  | .done _ _ | .exhausted => none

/--
The faults that are left do occur. An integer of the host that is handed straight from one function
to another reaches a program without becoming a number.
-/
theorem Session.Reachable.handed_integer_stops :
    ∃ held session, Session.Reachable .unrestricted held session ∧
      Source.isAccepted "fun show(x) { print x; } compose(three, show);" = true ∧
      (session.run 40 "fun show(x) { print x; } compose(three, show);").fault? =
        some .foreignValue := by
  have reached : Session.Reachable .unrestricted [] (Session.start fun _ => 0) := .start rfl
  have withThree := reached.defineNative 0 three (honest_three fun _ => trivial)
  have withBoth := withThree.defineNative 2 compose (honest_compose (.inr trivial)
    fun _ _ => .inr trivial)
  exact ⟨_, _, withBoth, by decide +kernel, by decide +kernel⟩

end Loxley
