import Loxley.Proofs.Plan

/-!
# More fuel

A computation that ends does so in the same way with more fuel. So it has one result, whatever the
fuel, or none.
-/

set_option autoImplicit false

namespace Loxley

namespace Result

variable {α β : Type}

/-- One result is the other, unless the fuel did not suffice for it. -/
def Approximates (less more : Result α) : Prop :=
  less ≠ .exhausted → more = less

namespace Approximates

variable {less more : Result α}

protected theorem refl (result : Result α) : result.Approximates result :=
  fun _ => rfl

protected theorem trans {most : Result α} (first : less.Approximates more)
    (second : more.Approximates most) : less.Approximates most := by
  intro ends
  have same := first ends
  rw [second (same ▸ ends), same]

theorem of_exhausted (result : Result α) : (exhausted : Result α).Approximates result :=
  fun ends => absurd rfl ends

theorem andThen {next follow : α → Machine → Result β} (first : less.Approximates more)
    (second : ∀ value machine, less = .ok value machine →
      (next value machine).Approximates (follow value machine)) :
    (less.andThen next).Approximates (more.andThen follow) := by
  cases less with
  | ok value machine =>
      rw [first (by simp)]
      exact second value machine rfl
  | error problem machine =>
      rw [first (by simp)]
      exact .refl _
  | fault reason machine =>
      rw [first (by simp)]
      exact .refl _
  | exhausted => exact of_exhausted _

theorem ensuring (first : less.Approximates more) (change : Machine → Machine) :
    (less.ensuring change).Approximates (more.ensuring change) := by
  intro ends
  have lessEnds : less ≠ .exhausted := by
    rintro rfl
    exact ends rfl
  rw [first lessEnds]

end Approximates

/-- A computation ends in some way if it does with some fuel. -/
def Ends (run : Nat → Result α) (result : Result α) : Prop :=
  result ≠ .exhausted ∧ ∃ fuel, run fuel = result

/-- Computations that follow each other with more fuel end in the same ways. -/
theorem ends_iff_of_approximates {run other : Nat → Result α}
    (forth : ∀ fuel, ∃ more, (run fuel).Approximates (other more))
    (back : ∀ fuel, ∃ more, (other fuel).Approximates (run more)) (result : Result α) :
    Ends run result ↔ Ends other result := by
  constructor
  · rintro ⟨ends, fuel, rfl⟩
    obtain ⟨more, same⟩ := forth fuel
    exact ⟨ends, more, same ends⟩
  · rintro ⟨ends, fuel, rfl⟩
    obtain ⟨more, same⟩ := back fuel
    exact ⟨ends, more, same ends⟩

end Result

theorem Plan.follow_approximates {α : Type} {less more : (visit : Visit) → Result visit.task.Answer}
    (lasts : ∀ visit, (less visit).Approximates (more visit)) (plan : Plan α) :
    (plan.follow less).Approximates (plan.follow more) := by
  induction plan with
  | done result => exact .refl result
  | ask visit next ih =>
      by_cases exhausted : less visit = .exhausted
      · rw [follow_ask_of_exhausted exhausted]
        exact .of_exhausted _
      · have same := lasts visit exhausted
        have ends : more visit ≠ .exhausted := same ▸ exhausted
        rw [follow_ask exhausted, follow_ask ends, same]
        exact ih _

theorem Visit.run_approximates {fuel more : Nat} (enough : fuel ≤ more) (visit : Visit) :
    (visit.run fuel).Approximates (visit.run more) := by
  induction fuel generalizing more visit with
  | zero =>
      rw [run_zero]
      exact .of_exhausted _
  | succ fuel ih =>
      cases more with
      | zero => exact absurd enough (Nat.not_succ_le_zero fuel)
      | succ more =>
          rw [run_succ, run_succ]
          exact visit.plan.follow_approximates (ih (Nat.le_of_succ_le_succ enough))

namespace Machine

variable {fuel more : Nat}

theorem evaluate_approximates (enough : fuel ≤ more) (expr : ResolvedExpr) (machine : Machine) :
    (evaluate fuel expr machine).Approximates (evaluate more expr machine) :=
  Visit.run_approximates enough ⟨.evaluate none expr, machine⟩

theorem execute_approximates (enough : fuel ≤ more) (stmt : ResolvedStmt) (machine : Machine) :
    (execute fuel stmt machine).Approximates (execute more stmt machine) :=
  Visit.run_approximates enough ⟨.execute stmt, machine⟩

theorem executeAll_approximates (enough : fuel ≤ more) (stmts : List ResolvedStmt)
    (machine : Machine) :
    (executeAll fuel stmts machine).Approximates (executeAll more stmts machine) :=
  Visit.run_approximates enough ⟨.executeAll stmts, machine⟩

end Machine

end Loxley
