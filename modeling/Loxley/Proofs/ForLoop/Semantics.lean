import Loxley.Proofs.Accepted
import Loxley.Proofs.Frame
import Loxley.Proofs.Fuel

/-!
# What a `for` loop means

A `for` loop run directly: the initializer once in a new scope around the whole loop, and then
rounds of the test, the body and the increment. The test and the increment run in the scope of the
loop; the body has a new scope in every round. The `while` loop that stands for it does exactly the
same.
-/

set_option autoImplicit false

namespace Loxley

/-- Goes on after a statement, unless it gave back a value. -/
def Result.proceed (result : Result Completion) (next : Machine → Result Completion) :
    Result Completion :=
  result.andThen fun completion machine =>
    match completion with
    | .returned value => .ok (.returned value) machine
    | .normal => next machine

/-- The scopes inside a number of new ones. -/
def Scopes.nested : Nat → Scopes → Scopes
  | 0, scopes => scopes
  | nesting + 1, scopes => [] :: nested nesting scopes

namespace Machine

/-- Enters a number of new environments, each inside the one before. -/
def enterNested : Nat → Machine → Machine
  | 0, machine => machine
  | nesting + 1, machine =>
    let outer := enterNested nesting machine
    outer.enter outer.current

/-- Evaluates an expression that may be missing, in which case a value stands for it. -/
def evaluateOr (missing : Value) (fuel : Nat) (machine : Machine) :
    Option ResolvedExpr → Result Value
  | none => .ok missing machine
  | some expr => evaluate fuel expr machine

end Machine

/-- The parts of a `for` loop. -/
structure ForLoop where
  initializer : Option (Stmt Unit)
  test : Option (Expr Unit)
  increment : Option (Expr Unit)
  body : Stmt Unit

namespace ForLoop

open Machine (leaveTo)

/-- The statement that stands for a `for` loop. -/
def desugar (keyword : Token) (loop : ForLoop) : Stmt Unit :=
  .forLoop keyword loop.initializer loop.test loop.increment loop.body

/-- The body, in so many new environments, and then the increment, where the loop is. -/
def round (nesting : Nat) (loop : ForLoop) (scopes : Scopes) (fuel : Nat) (machine : Machine) :
    Result Completion :=
  ((Machine.execute fuel (loop.body.resolve (scopes.nested nesting))
      (machine.enterNested nesting)).ensuring (leaveTo machine.current)).proceed fun machine =>
    (Machine.evaluateOr .nil fuel machine (loop.increment.map (Expr.resolve scopes))).andThen
      fun _ machine => .ok .normal machine

/-- Rounds for as long as the test holds. -/
def rounds (nesting : Nat) (loop : ForLoop) (scopes : Scopes) : Nat → Machine → Result Completion
  | 0, _ => .exhausted
  | fuel + 1, machine =>
    (Machine.evaluateOr (.bool true) fuel machine (loop.test.map (Expr.resolve scopes))).andThen
      fun value machine =>
        if value.isTruthy then
          (loop.round nesting scopes fuel machine).proceed (rounds nesting loop scopes fuel)
        else .ok .normal machine

/-- A whole `for` loop. Its initializer has a new scope, which the loop shares. -/
def run (nesting : Nat) (loop : ForLoop) (scopes : Scopes) (fuel : Nat) (machine : Machine) :
    Result Completion :=
  match loop.initializer with
  | none => loop.rounds nesting scopes fuel machine
  | some first =>
    ((Machine.execute fuel (first.resolve ([] :: scopes))
        (machine.enter machine.current)).proceed
      (loop.rounds nesting (first.extend ([] :: scopes)) fuel)).ensuring (leaveTo machine.current)

end ForLoop

/-! ## Expressions inside of further scopes -/

namespace Result

variable {α β : Type}

theorem ensuring_ensuring (result : Result α) (change adapt : Machine → Machine) :
    (result.ensuring change).ensuring adapt = result.ensuring (adapt ∘ change) := by
  cases result <;> rfl

/-- A change of the machine may come after the computations that do not notice it. -/
theorem andThen_ensuring {result : Result α} {next follow : α → Machine → Result β}
    {change : Machine → Machine} (same : ∀ value after, result = .ok value after →
      follow value (change after) = (next value after).ensuring change) :
    (result.ensuring change).andThen follow = (result.andThen next).ensuring change := by
  cases result with
  | ok value after => exact same value after rfl
  | error problem after => rfl
  | fault reason after => rfl
  | exhausted => rfl

end Result

/-- An environment lies directly inside another one. -/
structure Heap.Encloses (heap : Heap) (outer inner : EnvironmentId) : Prop where
  enclosing : heap.enclosing? inner = some outer
  older : outer < inner
  known : inner < heap.next

namespace Heap.Encloses

variable {heap after : Heap} {outer inner : EnvironmentId}

theorem extend {growing : EnvironmentId → Prop} (encloses : heap.Encloses outer inner)
    (extended : Extends growing heap after) : after.Encloses outer inner where
  enclosing := (extended.enclosing inner encloses.known).trans encloses.enclosing
  older := encloses.older
  known := Nat.lt_of_lt_of_le encloses.known extended.next

theorem create (known : outer < heap.next) :
    (heap.create (some outer)).Encloses outer heap.next where
  enclosing := heap.enclosing?_create_self (some outer)
  older := known
  known := by simp

theorem ancestor? (encloses : heap.Encloses outer inner) (distance : Nat) :
    heap.ancestor? inner (distance + 1) = heap.ancestor? outer distance :=
  Heap.ancestor?_succ encloses.enclosing encloses.older distance

end Heap.Encloses

namespace Machine

@[simp] theorem leaveTo_leaveTo (environment other : EnvironmentId) (machine : Machine) :
    leaveTo environment (leaveTo other machine) = leaveTo environment machine := rfl

@[simp] theorem leaveTo_current (machine : Machine) : leaveTo machine.current machine = machine :=
  rfl

variable {machine : Machine} {inner : EnvironmentId}

theorem finish_leaveTo (machine : Machine) (environment : EnvironmentId) (token : Token)
    (value : Except Mishap Value) :
    (leaveTo environment machine).finish token value =
      (machine.finish token value).ensuring (leaveTo environment) := by
  cases value <;> rfl

theorem operate_leaveTo (machine : Machine) (environment : EnvironmentId) (op : BinaryOp)
    (token : Token) (left right : Value) :
    (leaveTo environment machine).operate op token left right =
      (machine.operate op token left right).ensuring (leaveTo environment) := by
  unfold operate
  cases op.clash? left right with
  | some typeName => rfl
  | none => exact finish_leaveTo machine environment token (op.apply left right)

theorem conclude_leaveTo (machine : Machine) (environment : EnvironmentId) (token : Token)
    (callee : Value) (reply : HostReply) :
    (leaveTo environment machine).conclude token callee reply =
      (machine.conclude token callee reply).ensuring (leaveTo environment) := by
  unfold conclude
  split
  · rfl
  · exact finish_leaveTo machine environment token _
  · rfl

theorem read_leaveTo (encloses : machine.heap.Encloses machine.current inner) {scopes : Scopes}
    (covered : machine.heap.Covers scopes machine.current) (name : Token) :
    (leaveTo inner machine).read name (Scopes.distance? ([] :: scopes) name.lexeme) =
      (machine.read name (scopes.distance? name.lexeme)).ensuring (leaveTo inner) := by
  rw [Scopes.distance?_enter]
  cases found : scopes.distance? name.lexeme with
  | none =>
      simp only [Option.map_none, read, leaveTo]
      cases machine.heap.get? globals name.lexeme <;> rfl
  | some distance =>
      obtain ⟨owner, reached, _⟩ := covered name.lexeme distance found
      have farther := (encloses.ancestor? distance).trans reached
      simp only [Option.map_some, read, Heap.getAt, leaveTo, reached, farther]
      cases machine.heap.lookup? owner name.lexeme <;> rfl

theorem assign_leaveTo (encloses : machine.heap.Encloses machine.current inner) {scopes : Scopes}
    (covered : machine.heap.Covers scopes machine.current) (name : Token) (value : Value) :
    (leaveTo inner machine).assign name value (Scopes.distance? ([] :: scopes) name.lexeme) =
      (machine.assign name value (scopes.distance? name.lexeme)).ensuring (leaveTo inner) := by
  rw [Scopes.distance?_enter]
  cases found : scopes.distance? name.lexeme with
  | none =>
      simp only [Option.map_none, assign, leaveTo]
      cases machine.heap.owner? globals name.lexeme <;> rfl
  | some distance =>
      obtain ⟨owner, reached, bound⟩ := covered name.lexeme distance found
      have farther := (encloses.ancestor? distance).trans reached
      simp only [Option.map_some, assign, Heap.ownerAt, leaveTo, reached, farther, bound, if_true]
      rfl

theorem perform_leaveTo {environment : EnvironmentId} {fuel : Nat}
    (applied : ∀ callee arguments machine, apply fuel callee arguments (leaveTo environment machine) =
      (apply fuel callee arguments machine).ensuring (leaveTo environment))
    (action : HostAction) (machine : Machine) :
    action.perform (apply fuel) (leaveTo environment machine) =
      (action.perform (apply fuel) machine).ensuring (leaveTo environment) := by
  induction action generalizing machine with
  | answer reply => rfl
  | apply callee arguments next ih =>
      simp only [HostAction.perform, applied]
      exact Result.andThen_ensuring fun reply after _ => ih _ reply (after.tell reply)

/-- What a function does when it is applied does not depend on where that happens. -/
theorem apply_leaveTo (environment : EnvironmentId) (fuel : Nat) (callee : Value)
    (arguments : List Value) (machine : Machine) :
    apply fuel callee arguments (leaveTo environment machine) =
      (apply fuel callee arguments machine).ensuring (leaveTo environment) := by
  induction fuel generalizing callee arguments machine with
  | zero => rfl
  | succ fuel ih =>
      cases callee with
      | nil | bool _ | number _ | string _ | foreign _ => rfl
      | function closure =>
          simp only [apply]
          split
          · rfl
          · rw [Result.ensuring_ensuring]
            rfl
      | native reference =>
          have natives : (leaveTo environment machine).natives = machine.natives := rfl
          simp only [apply, natives]
          cases machine.natives[reference.identity]? with
          | none => rfl
          | some native => exact perform_leaveTo ih _ (machine.countCall reference.identity arguments)

theorem call_leaveTo (environment : EnvironmentId) (fuel : Nat) (paren : Token) (callee : Value)
    (arguments : List Value) (machine : Machine) :
    call fuel paren callee arguments (leaveTo environment machine) =
      (call fuel paren callee arguments machine).ensuring (leaveTo environment) := by
  cases fuel with
  | zero => rfl
  | succ fuel =>
      simp only [call]
      cases callee.arity? with
      | none => rfl
      | some arity =>
          by_cases wrong : (arguments.length : Int) ≠ arity
          · simp only [if_pos wrong]
            rfl
          by_cases full : machine.callLimit ≤ machine.depth
          · have alsoFull : (leaveTo environment machine).callLimit ≤
                (leaveTo environment machine).depth := full
            simp only [if_neg wrong, if_pos full, if_pos alsoFull]
            rfl
          have alsoRoom : ¬ (leaveTo environment machine).callLimit ≤
              (leaveTo environment machine).depth := full
          simp only [if_neg wrong, if_neg full, if_neg alsoRoom]
          have applied := apply_leaveTo environment fuel callee arguments
            { machine with depth := machine.depth + 1 }
          simp only [leaveTo] at applied ⊢
          rw [applied, Result.andThen_ensuring fun reply after _ =>
              conclude_leaveTo after environment paren callee reply,
            Result.ensuring_ensuring, Result.ensuring_ensuring]
          rfl

/-- Expressions with some fuel do not notice a scope that declares nothing. -/
structure Overlooks (fuel : Nat) : Prop where
  evaluate : ∀ scopes expr (machine : Machine) inner,
    machine.heap.Encloses machine.current inner → machine.heap.Covers scopes machine.current →
    evaluate fuel (Expr.resolve ([] :: scopes) expr) (leaveTo inner machine) =
      (evaluate fuel (expr.resolve scopes) machine).ensuring (leaveTo inner)
  evaluateAll : ∀ scopes exprs (machine : Machine) inner,
    machine.heap.Encloses machine.current inner → machine.heap.Covers scopes machine.current →
    evaluateAll fuel (Expr.resolveAll ([] :: scopes) exprs) (leaveTo inner machine) =
      (evaluateAll fuel (Expr.resolveAll scopes exprs) machine).ensuring (leaveTo inner)

namespace Overlooks

variable {fuel : Nat} {scopes : Scopes}

/-- Goes on with a value inside of the scope as outside of it. -/
private theorem andThen {α β : Type} {result : Result α} {next follow : α → Machine → Result β}
    (encloses : machine.heap.Encloses machine.current inner)
    (covered : machine.heap.Covers scopes machine.current)
    (framed : result.Meets (steady machine))
    (same : ∀ value after, after.heap.Encloses after.current inner →
      after.heap.Covers scopes after.current →
      follow value (leaveTo inner after) = (next value after).ensuring (leaveTo inner)) :
    (result.ensuring (leaveTo inner)).andThen follow =
      (result.andThen next).ensuring (leaveTo inner) := by
  refine Result.andThen_ensuring fun value after ended => ?_
  subst ended
  have follows : Follows (fun _ => False) machine after := framed
  have here : machine.current < machine.heap.next := Nat.lt_trans encloses.older encloses.known
  exact same value after (follows.current ▸ encloses.extend follows.heap)
    (follows.current ▸ covered.extend follows.heap here)

private theorem evaluate_succ (ih : Overlooks fuel) (expr : Expr Unit)
    (encloses : machine.heap.Encloses machine.current inner)
    (covered : machine.heap.Covers scopes machine.current) :
    Machine.evaluate (fuel + 1) (Expr.resolve ([] :: scopes) expr) (leaveTo inner machine) =
      (Machine.evaluate (fuel + 1) (expr.resolve scopes) machine).ensuring (leaveTo inner) := by
  have steadily := evaluate_steady fuel machine
  cases expr with
  | literal token value => rfl
  | group paren grouped => exact ih.evaluate scopes grouped machine inner encloses covered
  | unary op token operand =>
      simp only [Expr.resolve, Machine.evaluate, ih.evaluate scopes operand _ _ encloses covered]
      refine andThen encloses covered (steadily _) fun value after _ _ => ?_
      exact finish_leaveTo after inner token (op.apply value)
  | binary op token left right =>
      simp only [Expr.resolve, Machine.evaluate, ih.evaluate scopes left _ _ encloses covered]
      refine andThen encloses covered (steadily _) fun leftValue middle inside covers => ?_
      rw [ih.evaluate scopes right _ _ inside covers]
      refine andThen inside covers (evaluate_steady fuel middle _)
        fun rightValue after _ _ => ?_
      exact operate_leaveTo after inner op token leftValue rightValue
  | logical op token left right =>
      simp only [Expr.resolve, Machine.evaluate, ih.evaluate scopes left _ _ encloses covered]
      refine andThen encloses covered (steadily _) fun value after inside covers => ?_
      split
      · rfl
      · exact ih.evaluate scopes right _ _ inside covers
  | ident name reference => exact read_leaveTo encloses covered name
  | assign name reference value =>
      simp only [Expr.resolve, Machine.evaluate, ih.evaluate scopes value _ _ encloses covered]
      exact andThen encloses covered (steadily _) fun assigned after inside covers =>
        assign_leaveTo inside covers name assigned
  | call paren callee arguments =>
      simp only [Expr.resolve, Machine.evaluate, ih.evaluate scopes callee _ _ encloses covered]
      refine andThen encloses covered (steadily _) fun function middle inside covers => ?_
      rw [ih.evaluateAll scopes arguments _ _ inside covers]
      exact andThen inside covers (evaluateAll_steady fuel middle _) fun values after _ _ =>
        call_leaveTo inner fuel paren function values after

private theorem evaluateAll_succ (ih : Overlooks fuel) (exprs : List (Expr Unit))
    (encloses : machine.heap.Encloses machine.current inner)
    (covered : machine.heap.Covers scopes machine.current) :
    Machine.evaluateAll (fuel + 1) (Expr.resolveAll ([] :: scopes) exprs) (leaveTo inner machine) =
      (Machine.evaluateAll (fuel + 1) (Expr.resolveAll scopes exprs) machine).ensuring
        (leaveTo inner) := by
  cases exprs with
  | nil => rfl
  | cons first rest =>
      simp only [Expr.resolveAll, Machine.evaluateAll,
        ih.evaluate scopes first _ _ encloses covered]
      refine andThen encloses covered (evaluate_steady fuel machine _)
        fun value middle inside covers => ?_
      rw [ih.evaluateAll scopes rest _ _ inside covers]
      exact andThen inside covers (evaluateAll_steady fuel middle _) fun _ _ _ _ => rfl

end Overlooks

theorem overlooks (fuel : Nat) : Overlooks fuel := by
  induction fuel with
  | zero => constructor <;> intros <;> rfl
  | succ fuel ih =>
      constructor
      · exact fun scopes expr machine inner => ih.evaluate_succ expr
      · exact fun scopes exprs machine inner => ih.evaluateAll_succ exprs

end Machine

end Loxley
