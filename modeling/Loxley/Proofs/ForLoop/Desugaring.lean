import Loxley.Proofs.ForLoop.Semantics
import Loxley.Proofs.Safety

/-!
# The `while` loop that stands for a `for` loop

The block that a `for` loop becomes ends exactly as the loop does when it is run directly, if the
body gets one new environment in every round, and one more where an increment follows it.
-/

set_option autoImplicit false

namespace Loxley

namespace Result

theorem Approximates.proceed {less more : Result Completion}
    {next follow : Machine → Result Completion} (first : less.Approximates more)
    (second : ∀ machine, less = .ok .normal machine →
      (next machine).Approximates (follow machine)) :
    (less.proceed next).Approximates (more.proceed follow) := by
  refine first.andThen fun completion machine ended => ?_
  cases completion with
  | returned value => exact .refl _
  | normal => exact second machine ended

/-- Nothing is left to do after a statement. -/
theorem proceed_ok_normal (result : Result Completion) :
    result.proceed (fun machine => .ok .normal machine) = result := by
  cases result with
  | ok completion machine => cases completion <;> rfl
  | error problem machine => rfl
  | fault reason machine => rfl
  | exhausted => rfl

end Result

namespace Machine

theorem executeAll_nil (fuel : Nat) (machine : Machine) :
    executeAll (fuel + 1) [] machine = .ok .normal machine := by
  simp only [executeAll]

theorem executeAll_cons (fuel : Nat) (first : ResolvedStmt) (rest : List ResolvedStmt)
    (machine : Machine) :
    executeAll (fuel + 1) (first :: rest) machine =
      (execute fuel first machine).proceed (executeAll fuel rest) := by
  simp only [executeAll]
  rfl

/-- With some fuel left at the end, a statement alone does what it does in a sequence. -/
theorem executeAll_singleton (fuel : Nat) (stmt : ResolvedStmt) (machine : Machine) :
    executeAll (fuel + 2) [stmt] machine = execute (fuel + 1) stmt machine := by
  have done : executeAll (fuel + 1) [] = fun machine => .ok .normal machine :=
    funext (executeAll_nil fuel)
  rw [executeAll_cons, done, Result.proceed_ok_normal]

theorem execute_block (fuel : Nat) (brace : Token) (body : List ResolvedStmt) (machine : Machine) :
    execute (fuel + 1) (.block brace body) machine =
      (executeAll fuel body (machine.enter machine.current)).ensuring (leaveTo machine.current) := by
  simp only [execute]

theorem execute_expression (fuel : Nat) (token : Token) (value : ResolvedExpr)
    (machine : Machine) :
    execute (fuel + 1) (.expression token value) machine =
      (evaluate fuel value machine).andThen fun _ machine => .ok .normal machine := by
  simp only [execute]

theorem execute_loop (fuel : Nat) (keyword : Token) (test : ResolvedExpr) (body : ResolvedStmt)
    (machine : Machine) :
    execute (fuel + 1) (.loop keyword test body) machine =
      (evaluate fuel test machine).andThen fun value machine =>
        if value.isTruthy then
          ((executeAll fuel [body] (machine.enter machine.current)).ensuring
            (leaveTo machine.current)).proceed (execute fuel (.loop keyword test body))
        else .ok .normal machine := by
  simp only [execute]
  rfl

/-- Going back to where a computation ended anyway changes nothing. -/
theorem ensuring_leaveTo_of_steady {α : Type} {machine : Machine} {result : Result α}
    (framed : result.Meets (steady machine)) :
    result.ensuring (leaveTo machine.current) = result := by
  have here : ∀ after, Follows (fun _ => False) machine after →
      leaveTo machine.current after = after :=
    fun after follows => follows.current ▸ leaveTo_current after
  cases result with
  | ok value after => exact congrArg (Result.ok value) (here after framed)
  | error problem after => exact congrArg (Result.error problem) (here after framed)
  | fault reason after => exact congrArg (Result.fault reason) (here after framed)
  | exhausted => rfl

theorem evaluateOr_approximates {fuel more : Nat} (enough : fuel ≤ more) (missing : Value)
    (machine : Machine) (expr : Option ResolvedExpr) :
    (evaluateOr missing fuel machine expr).Approximates
      (evaluateOr missing more machine expr) := by
  cases expr with
  | none => exact .refl _
  | some expr => exact evaluate_approximates enough expr machine

end Machine

namespace ForLoop

open Machine (leaveTo)

/-- How many new environments the body of the block that stands for a `for` loop is in. -/
def nesting (loop : ForLoop) : Nat :=
  if loop.increment.isSome then 2 else 1

variable {loop : ForLoop} {scopes : Scopes} {machine : Machine}

theorem nesting_of_increment {increment : Expr Unit} (incremented : loop.increment = some increment) :
    loop.nesting = 2 := by
  simp [nesting, incremented]

theorem nesting_of_no_increment (missing : loop.increment = none) : loop.nesting = 1 := by
  simp [nesting, missing]

/-- One pass through the body of the `while` loop that stands for a `for` loop. -/
def pass (keyword : Token) (loop : ForLoop) (scopes : Scopes) (fuel : Nat) (machine : Machine) :
    Result Completion :=
  (Machine.executeAll fuel
    [(Stmt.withIncrement keyword loop.body loop.increment).resolve ([] :: scopes)]
    (machine.enter machine.current)).ensuring (leaveTo machine.current)

/-- The increment that follows the body does there what it does around it. -/
theorem increment_inside {after : Machine} (known : machine.current < machine.heap.next)
    (covered : machine.heap.Covers scopes machine.current)
    (follows : Machine.Follows (· = (machine.enterNested 2).current) (machine.enterNested 2) after)
    (fuel : Nat) (increment : Expr Unit) :
    (Machine.evaluate fuel (increment.resolve ([] :: [] :: scopes)) after).ensuring
        (leaveTo machine.current) =
      Machine.evaluate fuel (increment.resolve scopes) (leaveTo machine.current after) := by
  let outside := machine.enter machine.current
  have grown : Heap.Extends (· = (machine.enterNested 2).current) outside.heap after.heap :=
    (Heap.Extends.create _ outside.heap (some outside.current)).trans follows.heap
  have grownWhole : Heap.Extends (· = (machine.enterNested 2).current) machine.heap after.heap :=
    (Heap.Extends.create _ machine.heap (some machine.current)).trans grown
  have fresh : outside.current < outside.heap.next := by simp [outside, Machine.enter]
  have around : after.heap.Encloses machine.current outside.current :=
    (Heap.Encloses.create known).extend grown
  have within : after.heap.Encloses outside.current (machine.enterNested 2).current :=
    (Heap.Encloses.create fresh).extend follows.heap
  have coveredAround : after.heap.Covers scopes machine.current := covered.extend grownWhole known
  have coveredWithin : after.heap.Covers ([] :: scopes) outside.current :=
    (covered.enter known).extend grown fresh
  have here : leaveTo (machine.enterNested 2).current (leaveTo outside.current after) = after :=
    follows.current ▸ Machine.leaveTo_current after
  -- One scope at a time, from the inside out.
  have inner := (Machine.overlooks fuel).evaluate ([] :: scopes) increment
    (leaveTo outside.current after) (machine.enterNested 2).current within coveredWithin
  have outer := (Machine.overlooks fuel).evaluate scopes increment
    (leaveTo machine.current after) outside.current around coveredAround
  rw [here] at inner
  rw [Machine.leaveTo_leaveTo] at outer
  rw [inner, outer, Result.ensuring_ensuring, Result.ensuring_ensuring]
  have steadily := Machine.evaluate_steady fuel (leaveTo machine.current after)
    (increment.resolve scopes)
  have unchanged := Machine.ensuring_leaveTo_of_steady steadily
  exact unchanged

/-- A round with fuel of its own for the increment. -/
def roundWith (nesting : Nat) (loop : ForLoop) (scopes : Scopes) (fuel left : Nat)
    (machine : Machine) : Result Completion :=
  ((Machine.execute fuel (loop.body.resolve (scopes.nested nesting))
      (machine.enterNested nesting)).ensuring (leaveTo machine.current)).proceed fun machine =>
    (Machine.evaluateOr .nil left machine (loop.increment.map (Expr.resolve scopes))).andThen
      fun _ machine => .ok .normal machine

theorem roundWith_self (nesting : Nat) (loop : ForLoop) (scopes : Scopes) (fuel : Nat)
    (machine : Machine) :
    loop.roundWith nesting scopes fuel fuel machine = loop.round nesting scopes fuel machine := rfl

theorem roundWith_approximates {fuel more left leftMore : Nat} (enough : fuel ≤ more)
    (enoughLeft : left ≤ leftMore) (nesting : Nat) (loop : ForLoop) (scopes : Scopes)
    (machine : Machine) :
    (loop.roundWith nesting scopes fuel left machine).Approximates
      (loop.roundWith nesting scopes more leftMore machine) := by
  refine ((Machine.execute_approximates enough _ _).ensuring _).proceed fun after _ => ?_
  exact (Machine.evaluateOr_approximates enoughLeft _ _ _).andThen fun _ _ _ => .refl _

theorem pass_of_increment {increment : Expr Unit} (keyword : Token) (plain : loop.body.Plain)
    (incremented : loop.increment = some increment) (known : machine.current < machine.heap.next)
    (covered : machine.heap.Covers scopes machine.current) (fuel : Nat) :
    loop.pass keyword scopes (fuel + 5) machine =
      loop.roundWith 2 scopes (fuel + 2) fuel machine := by
  have same : loop.body.extend ([] :: [] :: scopes) = [] :: [] :: scopes :=
    Stmt.extend_of_plain plain
  have framed := Machine.execute_growing (fuel + 2) (machine.enterNested 2)
    (loop.body.resolve (scopes.nested 2))
  have inside : loop.pass keyword scopes (fuel + 5) machine =
      ((Machine.execute (fuel + 2) (loop.body.resolve (scopes.nested 2))
          (machine.enterNested 2)).proceed fun machine =>
        (Machine.evaluate fuel (increment.resolve ([] :: [] :: scopes)) machine).andThen
          fun _ machine => .ok .normal machine).ensuring (leaveTo machine.current) := by
    simp only [pass, incremented, Stmt.withIncrement, Stmt.resolve, Stmt.resolveAll, same]
    have last : Machine.executeAll (fuel + 2)
        [.expression keyword (increment.resolve ([] :: [] :: scopes))] = fun machine =>
          (Machine.evaluate fuel (increment.resolve ([] :: [] :: scopes)) machine).andThen
            fun _ machine => .ok .normal machine := by
      funext machine
      rw [Machine.executeAll_singleton, Machine.execute_expression]
    rw [Machine.executeAll_singleton, Machine.execute_block, Machine.executeAll_cons,
      Result.ensuring_ensuring, last]
    rfl
  simp only [inside, roundWith, incremented, Option.map_some, Machine.evaluateOr]
  generalize Machine.execute (fuel + 2) (loop.body.resolve (scopes.nested 2))
    (machine.enterNested 2) = ran at framed
  cases ran with
  | error problem after => rfl
  | fault reason after => rfl
  | exhausted => rfl
  | ok completion after =>
      cases completion with
      | returned value => rfl
      | normal =>
          have moved := increment_inside known covered framed fuel increment
          simp only [Result.proceed, Result.andThen, Result.ensuring]
          rw [← moved]
          cases Machine.evaluate fuel (increment.resolve ([] :: [] :: scopes)) after <;> rfl

theorem pass_of_no_increment (keyword : Token) (missing : loop.increment = none) (fuel : Nat) :
    loop.pass keyword scopes (fuel + 2) machine = loop.round 1 scopes (fuel + 1) machine := by
  simp only [pass, round, missing, Stmt.withIncrement, Option.map_none, Machine.evaluateOr]
  rw [Machine.executeAll_singleton]
  exact (Result.proceed_ok_normal _).symm

theorem pass_approximates_round (keyword : Token) (plain : loop.body.Plain)
    (known : machine.current < machine.heap.next)
    (covered : machine.heap.Covers scopes machine.current) (fuel : Nat) :
    (loop.pass keyword scopes fuel machine).Approximates
      (loop.round loop.nesting scopes (fuel + 2) machine) := by
  have more : ∀ extra, (loop.pass keyword scopes fuel machine).Approximates
      (loop.pass keyword scopes (fuel + extra) machine) := fun extra =>
    (Machine.executeAll_approximates (Nat.le_add_right fuel extra) _ _).ensuring _
  cases increment : loop.increment with
  | none =>
      rw [nesting_of_no_increment increment]
      refine (more 2).trans ?_
      rw [pass_of_no_increment keyword increment, ← roundWith_self, ← roundWith_self]
      exact roundWith_approximates (by omega) (by omega) 1 loop scopes machine
  | some step =>
      rw [nesting_of_increment increment]
      refine (more 5).trans ?_
      rw [pass_of_increment keyword plain increment known covered, ← roundWith_self]
      exact roundWith_approximates (by omega) (by omega) 2 loop scopes machine

theorem round_approximates_pass (keyword : Token) (plain : loop.body.Plain)
    (known : machine.current < machine.heap.next)
    (covered : machine.heap.Covers scopes machine.current) (fuel : Nat) :
    (loop.round loop.nesting scopes fuel machine).Approximates
      (loop.pass keyword scopes (fuel + 5) machine) := by
  rw [← roundWith_self]
  cases increment : loop.increment with
  | none =>
      rw [nesting_of_no_increment increment, pass_of_no_increment keyword increment,
        ← roundWith_self]
      exact roundWith_approximates (by omega) (by omega) 1 loop scopes machine
  | some step =>
      rw [nesting_of_increment increment,
        pass_of_increment keyword plain increment known covered]
      exact roundWith_approximates (by omega) (by omega) 2 loop scopes machine

/-- The test of the `while` loop, which always holds if the `for` loop has none. -/
def condition (keyword : Token) (loop : ForLoop) : Expr Unit :=
  loop.test.getD (.literal keyword (.bool true))

theorem condition_approximates (keyword : Token) (loop : ForLoop) (scopes : Scopes) (fuel : Nat)
    (machine : Machine) :
    (Machine.evaluate fuel ((loop.condition keyword).resolve scopes) machine).Approximates
      (Machine.evaluateOr (.bool true) fuel machine (loop.test.map (Expr.resolve scopes))) := by
  unfold condition
  cases loop.test with
  | some test => exact .refl _
  | none =>
      cases fuel with
      | zero => exact .of_exhausted _
      | succ fuel => exact .refl _

theorem approximates_condition (keyword : Token) (loop : ForLoop) (scopes : Scopes) (fuel : Nat)
    (machine : Machine) :
    (Machine.evaluateOr (.bool true) fuel machine
      (loop.test.map (Expr.resolve scopes))).Approximates
        (Machine.evaluate (fuel + 1) ((loop.condition keyword).resolve scopes) machine) := by
  unfold condition
  cases loop.test with
  | none => exact .refl _
  | some test => exact Machine.evaluate_approximates (Nat.le_succ fuel) _ _

/-- The `while` loop that stands for the rounds of a `for` loop. -/
def whileLoop (keyword : Token) (loop : ForLoop) : Stmt Unit :=
  .loop keyword (loop.condition keyword) (.withIncrement keyword loop.body loop.increment)

theorem execute_whileLoop (keyword : Token) (loop : ForLoop) (scopes : Scopes) (fuel : Nat)
    (machine : Machine) :
    Machine.execute (fuel + 1) ((loop.whileLoop keyword).resolve scopes) machine =
      (Machine.evaluate fuel ((loop.condition keyword).resolve scopes) machine).andThen
        fun value machine =>
          if value.isTruthy then
            (loop.pass keyword scopes fuel machine).proceed
              (Machine.execute fuel ((loop.whileLoop keyword).resolve scopes))
          else .ok .normal machine := by
  simp only [whileLoop, Stmt.resolve]
  rw [Machine.execute_loop]
  rfl

/-- What a computation in the scope of the loop leaves as it was. -/
theorem still_covered {α : Type} {result : Result α} {value : α} {after : Machine}
    (framed : result.Meets (Machine.steady machine)) (ended : result = .ok value after)
    (known : machine.current < machine.heap.next)
    (covered : machine.heap.Covers scopes machine.current) :
    after.current < after.heap.next ∧ after.heap.Covers scopes after.current := by
  subst ended
  have follows : Machine.Follows (fun _ => False) machine after := framed
  rw [follows.current]
  exact ⟨Nat.lt_of_lt_of_le known follows.heap.next, covered.extend follows.heap known⟩

theorem whileLoop_approximates_rounds (keyword : Token) (plain : loop.body.Plain)
    (known : machine.current < machine.heap.next)
    (covered : machine.heap.Covers scopes machine.current) (fuel : Nat) :
    (Machine.execute fuel ((loop.whileLoop keyword).resolve scopes) machine).Approximates
      (loop.rounds loop.nesting scopes (fuel + 2) machine) := by
  induction fuel generalizing machine with
  | zero => exact .of_exhausted _
  | succ fuel ih =>
      rw [execute_whileLoop]
      have tested : (Machine.evaluate fuel ((loop.condition keyword).resolve scopes)
          machine).Approximates (Machine.evaluateOr (.bool true) (fuel + 2) machine
            (loop.test.map (Expr.resolve scopes))) :=
        (condition_approximates keyword loop scopes fuel machine).trans
          (Machine.evaluateOr_approximates (by omega) _ _ _)
      refine tested.andThen fun value middle ended => ?_
      obtain ⟨middleKnown, middleCovered⟩ :=
        still_covered (Machine.evaluate_steady fuel machine _) ended known covered
      split
      · have passed := pass_approximates_round keyword plain middleKnown middleCovered fuel
        refine passed.proceed fun after stopped => ?_
        obtain ⟨afterKnown, afterCovered⟩ := still_covered
          (Machine.nested_steady fuel middle _) stopped middleKnown middleCovered
        exact ih afterKnown afterCovered
      · exact .refl _

theorem rounds_approximate_whileLoop (keyword : Token) (plain : loop.body.Plain)
    (known : machine.current < machine.heap.next)
    (covered : machine.heap.Covers scopes machine.current) (fuel : Nat) :
    (loop.rounds loop.nesting scopes fuel machine).Approximates
      (Machine.execute (fuel + 5) ((loop.whileLoop keyword).resolve scopes) machine) := by
  induction fuel generalizing machine with
  | zero => exact .of_exhausted _
  | succ fuel ih =>
      rw [Nat.succ_add, execute_whileLoop]
      have tested : (Machine.evaluateOr (.bool true) fuel machine
          (loop.test.map (Expr.resolve scopes))).Approximates
            (Machine.evaluate (fuel + 5) ((loop.condition keyword).resolve scopes) machine) :=
        (approximates_condition keyword loop scopes fuel machine).trans
          (Machine.evaluate_approximates (by omega) _ _)
      refine tested.andThen fun value middle ended => ?_
      have alsoEnded := (tested (by rw [ended]; simp)).trans ended
      obtain ⟨middleKnown, middleCovered⟩ :=
        still_covered (Machine.evaluate_steady (fuel + 5) machine _) alsoEnded known covered
      split
      · have passed := round_approximates_pass keyword plain middleKnown middleCovered fuel
        refine passed.proceed fun after stopped => ?_
        have alsoStopped := (passed (by rw [stopped]; simp)).trans stopped
        obtain ⟨afterKnown, afterCovered⟩ := still_covered
          (Machine.nested_steady (fuel + 5) middle _) alsoStopped middleKnown middleCovered
        exact ih afterKnown afterCovered
      · exact .refl _

/-- With an initializer, the block runs it before the `while` loop, in a scope of their own. -/
theorem execute_desugar_of_initializer (keyword : Token) {first : Stmt Unit}
    (initialized : loop.initializer = some first) (fuel : Nat) :
    Machine.execute (fuel + 4) ((loop.desugar keyword).resolve scopes) machine =
      ((Machine.execute (fuel + 2) (first.resolve ([] :: scopes))
          (machine.enter machine.current)).proceed
        (Machine.execute (fuel + 1)
          ((loop.whileLoop keyword).resolve (first.extend ([] :: scopes))))).ensuring
            (leaveTo machine.current) := by
  have last : Machine.executeAll (fuel + 2)
      [(loop.whileLoop keyword).resolve (first.extend ([] :: scopes))] =
        Machine.execute (fuel + 1)
          ((loop.whileLoop keyword).resolve (first.extend ([] :: scopes))) :=
    funext fun machine => Machine.executeAll_singleton fuel _ machine
  have shape : loop.desugar keyword = .block keyword [first, loop.whileLoop keyword] := by
    simp only [desugar, Stmt.forLoop, initialized]
    rfl
  rw [shape]
  simp only [Stmt.resolve, Stmt.resolveAll]
  rw [Machine.execute_block, Machine.executeAll_cons, last]

theorem desugar_of_no_initializer (keyword : Token) (missing : loop.initializer = none) :
    loop.desugar keyword = loop.whileLoop keyword := by
  simp only [desugar, Stmt.forLoop, missing]
  rfl

/-- After the initializer, the scope that it shares with the loop is covered. -/
theorem covered_after_initializer {policy : HostPolicy} {inFunction : Bool} {fuel : Nat}
    {first : Stmt Unit} {after : Machine} (ready : machine.Ready policy scopes)
    (accepted : first.Accepted inFunction ([] :: scopes))
    (executed : Machine.execute fuel (first.resolve ([] :: scopes))
      (machine.enter machine.current) = .ok .normal after) :
    after.current < after.heap.next ∧
      after.heap.Covers (first.extend ([] :: scopes)) after.current := by
  have entered : (machine.enter machine.current).Ready policy ([] :: scopes) :=
    .enter ready.sound ready.hosted.covers ready.hosted.known
  have met := entered.execute accepted fuel
  rw [executed] at met
  obtain ⟨⟨_, _, afterReady⟩, _⟩ := met
  exact ⟨(afterReady rfl).hosted.known, (afterReady rfl).hosted.covers⟩

/-- The block that stands for a `for` loop ends as the loop itself does. -/
theorem ends_desugar_iff {policy : HostPolicy} {inFunction : Bool} (keyword : Token)
    (ready : machine.Ready policy scopes)
    (accepted : (loop.desugar keyword).Accepted inFunction scopes) (plain : loop.body.Plain)
    (result : Result Completion) :
    Result.Ends (fun fuel => Machine.execute fuel ((loop.desugar keyword).resolve scopes) machine)
        result ↔
      Result.Ends (fun fuel => loop.run loop.nesting scopes fuel machine) result := by
  cases initialized : loop.initializer with
  | none =>
      have known := ready.hosted.known
      have covered := ready.hosted.covers
      simp only [desugar_of_no_initializer keyword initialized, run, initialized]
      refine Result.ends_iff_of_approximates (fun fuel => ⟨fuel + 2, ?_⟩)
        (fun fuel => ⟨fuel + 5, ?_⟩) result
      · exact whileLoop_approximates_rounds keyword plain known covered fuel
      · exact rounds_approximate_whileLoop keyword plain known covered fuel
  | some first =>
      have firstAccepted : first.Accepted inFunction ([] :: scopes) := by
        simp only [desugar, Stmt.forLoop, initialized] at accepted
        exact accepted.of_block.of_cons.1
      simp only [run, initialized]
      refine Result.ends_iff_of_approximates (fun fuel => ⟨fuel + 3, ?_⟩)
        (fun fuel => ⟨fuel + 8, ?_⟩) result
      · refine (Machine.execute_approximates (Nat.le_add_right fuel 4) _ _).trans ?_
        rw [execute_desugar_of_initializer keyword initialized]
        refine Result.Approximates.ensuring (Result.Approximates.proceed
          (Machine.execute_approximates (by omega) _ _) fun after executed => ?_) _
        obtain ⟨known, covered⟩ := covered_after_initializer ready firstAccepted executed
        exact whileLoop_approximates_rounds keyword plain known covered (fuel + 1)
      · rw [execute_desugar_of_initializer keyword initialized]
        refine Result.Approximates.ensuring (Result.Approximates.proceed
          (Machine.execute_approximates (by omega) _ _) fun after executed => ?_) _
        obtain ⟨known, covered⟩ := covered_after_initializer ready firstAccepted executed
        exact rounds_approximate_whileLoop keyword plain known covered fuel

end ForLoop

end Loxley
