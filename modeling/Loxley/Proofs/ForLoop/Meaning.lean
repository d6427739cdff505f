import Loxley.Proofs.ForLoop.Desugaring
import Loxley.Proofs.SessionSafety
import Loxley.Proofs.Spacing.Run

/-!
# The meaning of `for` loops is preserved

However many new environments the body of a `for` loop gets in every round, the loop does the same,
except for the spare ones among them. So the block that stands for it means what the loop itself
means with one new environment.
-/

set_option autoImplicit false

namespace Loxley

namespace Result

/--
Two computations end in the same ways, up to what it is for results to be the same. So neither of
them ends unless the other one does.
-/
structure Equivalent {α : Type} (same : Result α → Result α → Prop) (run other : Nat → Result α) :
    Prop where
  forth : ∀ result, Ends run result → ∃ final, Ends other final ∧ same result final
  back : ∀ final, Ends other final → ∃ result, Ends run result ∧ same result final
  endless : (∀ fuel, run fuel = .exhausted) ↔ ∀ fuel, other fuel = .exhausted

theorem endless_of_ends {α : Type} {run other : Nat → Result α}
    (ends : ∀ result, Ends run result → ∃ final, Ends other final)
    (endless : ∀ fuel, other fuel = .exhausted) (fuel : Nat) : run fuel = .exhausted := by
  by_contra stopped
  obtain ⟨final, finishes, others, rfl⟩ := ends (run fuel) ⟨stopped, fuel, rfl⟩
  exact finishes (endless others)

theorem Equivalent.of_forth_back {α : Type} {same : Result α → Result α → Prop}
    {run other : Nat → Result α}
    (forth : ∀ result, Ends run result → ∃ final, Ends other final ∧ same result final)
    (back : ∀ final, Ends other final → ∃ result, Ends run result ∧ same result final) :
    Equivalent same run other := by
  refine ⟨forth, back, ⟨fun endless => ?_, fun endless => ?_⟩⟩
  · refine endless_of_ends (fun final finishes => ?_) endless
    obtain ⟨result, stops, _⟩ := back final finishes
    exact ⟨result, stops⟩
  · refine endless_of_ends (fun result stops => ?_) endless
    obtain ⟨final, finishes, _⟩ := forth result stops
    exact ⟨final, finishes⟩

/-- Results of a computation on a machine that differ at most in spare environments. -/
def Resembles (machine : Machine) (spacious result : Result Completion) : Prop :=
  Spaced (.same machine.heap) [] Completion.Spaced result spacious

theorem Spaced.proceed {spacing : Spacing} {gaps : Gaps} {result other : Result Completion}
    {next follow : Machine → Result Completion}
    (first : Spaced spacing gaps Completion.Spaced result other)
    (second : ∀ later machine counterpart, spacing <+: later →
      Machine.Spaced later gaps machine counterpart →
      Spaced later gaps Completion.Spaced (next machine) (follow counterpart)) :
    Spaced spacing gaps Completion.Spaced (result.proceed next) (other.proceed follow) := by
  refine first.andThen (fun _ _ => List.IsPrefix.trans)
    fun later completion counterpart machine opposite grown related spaced => ?_
  cases related with
  | normal => exact second later machine opposite grown spaced
  | returned related => exact Spaced.pure (.returned related) spaced

end Result

/-! ## Nested scopes and environments -/

theorem Scopes.distance?_nested (scopes : Scopes) (nesting : Nat) (name : Text) :
    (scopes.nested nesting).distance? name = (scopes.distance? name).map (· + nesting) := by
  induction nesting with
  | zero => simp [Scopes.nested]
  | succ nesting ih =>
      rw [Scopes.nested, distance?_enter, ih, Option.map_map]
      rfl

theorem Scopes.Widens.nested {gaps : Gaps} {scopes wider : Scopes}
    (widens : Scopes.Widens gaps scopes wider) (spare : Nat) :
    Scopes.Widens (spare :: gaps) ([] :: scopes) (wider.nested (spare + 1)) := by
  refine ⟨fun name => ?_, rfl⟩
  rw [distance?_nested, distance?_enter, widens.distance]
  cases scopes.distance? name with
  | none => rfl
  | some distance =>
      rw [Option.map_some, Option.map_some, Option.map_some, Option.map_some,
        Gaps.reach_cons_succ]
      rfl

namespace Machine

/-- Nested new environments lie one inside the other. -/
theorem ancestor?_enterNested {machine : Machine} (known : machine.current < machine.heap.next)
    (nesting : Nat) :
    (machine.enterNested nesting).current < (machine.enterNested nesting).heap.next ∧
      machine.current < (machine.enterNested nesting).heap.next ∧
      ∀ distance, (machine.enterNested nesting).heap.ancestor?
          (machine.enterNested nesting).current (distance + nesting) =
        (machine.enterNested nesting).heap.ancestor? machine.current distance := by
  induction nesting with
  | zero => exact ⟨known, known, fun _ => rfl⟩
  | succ nesting ih =>
      obtain ⟨innerKnown, outerKnown, reached⟩ := ih
      have extended := Heap.Extends.create (fun _ => False) (machine.enterNested nesting).heap
        (some (machine.enterNested nesting).current)
      have inside := Heap.Encloses.create innerKnown
      refine ⟨inside.known, Nat.lt_of_lt_of_le outerKnown extended.next, fun distance => ?_⟩
      calc ((machine.enterNested nesting).heap.create
            (some (machine.enterNested nesting).current)).ancestor?
              (machine.enterNested nesting).heap.next (distance + nesting + 1)
        _ = _ := inside.ancestor? (distance + nesting)
        _ = _ := extended.ancestor? innerKnown (distance + nesting)
        _ = _ := reached distance
        _ = _ := (extended.ancestor? outerKnown distance).symm

namespace Spaced

variable {spacing : Spacing} {gaps : Gaps} {machine other : Machine}

/-- Environments without a counterpart do not matter, once they are left. -/
theorem enterSpare (spaced : Machine.Spaced spacing gaps machine other) (spare : Nat) :
    Machine.Spaced spacing gaps machine
      (Machine.leaveTo other.current (other.enterNested spare)) := by
  induction spare with
  | zero => exact spaced
  | succ spare ih =>
      exact { ih with heap := ih.heap.spare (some (other.enterNested spare).current) }

theorem enterNested (spaced : Machine.Spaced spacing gaps machine other) (spare : Nat) :
    Machine.Spaced
      (spacing ++ [((other.enterNested spare).heap.next, spare :: gaps)]) (spare :: gaps)
      (machine.enter machine.current) (other.enterNested (spare + 1)) := by
  have known := spaced.heap.known _ _ _ spaced.current
  obtain ⟨innerKnown, _, reached⟩ := ancestor?_enterNested known spare
  exact (spaced.enterSpare spare).enterApart spaced.current innerKnown reached

end Spaced

end Machine

namespace ForLoop

open Machine (leaveTo)

variable {loop : ForLoop} {scopes wider : Scopes} {machine other : Machine} {spacing : Spacing}
  {gaps : Gaps}

theorem evaluateOr_spaced (spaced : Machine.Spaced spacing gaps machine other)
    (widens : Scopes.Widens gaps scopes wider) (missing : Literal) (fuel : Nat)
    (expr : Option (Expr Unit)) :
    Result.Spaced spacing gaps Value.Spaced
      (Machine.evaluateOr (.ofLiteral missing) fuel machine (expr.map (Expr.resolve scopes)))
      (Machine.evaluateOr (.ofLiteral missing) fuel other (expr.map (Expr.resolve wider))) := by
  cases expr with
  | none => exact .pure (.ofLiteral spacing missing) spaced
  | some expr =>
      have evaluated := spaced.evaluate fuel (expr.resolve scopes)
      rw [expr.widen_resolve widens] at evaluated
      exact evaluated

theorem round_spaced (spaced : Machine.Spaced spacing gaps machine other)
    (widens : Scopes.Widens gaps scopes wider) (spare fuel : Nat) :
    Result.Spaced spacing gaps Completion.Spaced (loop.round 1 scopes fuel machine)
      (loop.round (spare + 1) wider fuel other) := by
  have grown : spacing <+:
      spacing ++ [((other.enterNested spare).heap.next, spare :: gaps)] := List.prefix_append ..
  have executed := (spaced.enterNested spare).execute fuel (loop.body.resolve ([] :: scopes))
  rw [loop.body.widen_resolve (widens.nested spare)] at executed
  have left := (executed.earlier fun _ => grown.trans).ensuring
    fun later after next grownMore spacedAfter =>
      spacedAfter.leaveTo (spaced.current.grow grownMore)
  refine Result.Spaced.proceed left fun later after next _ spacedAfter => ?_
  exact (evaluateOr_spaced spacedAfter widens .nil fuel loop.increment).andThen
    (fun _ _ => List.IsPrefix.trans) fun _ _ _ _ _ _ _ spacedLast =>
      Result.Spaced.pure .normal spacedLast

theorem rounds_spaced (loop : ForLoop) (spaced : Machine.Spaced spacing gaps machine other)
    (widens : Scopes.Widens gaps scopes wider) (spare fuel : Nat) :
    Result.Spaced spacing gaps Completion.Spaced (loop.rounds 1 scopes fuel machine)
      (loop.rounds (spare + 1) wider fuel other) := by
  induction fuel generalizing spacing machine other with
  | zero => exact .exhausted
  | succ fuel ih =>
      refine (evaluateOr_spaced spaced widens (.bool true) fuel loop.test).andThen
        (fun _ _ => List.IsPrefix.trans) fun _ value content _ _ _ related spacedMiddle => ?_
      rw [related.similar.isTruthy]
      split
      · exact Result.Spaced.proceed (round_spaced spacedMiddle widens spare fuel)
          fun _ _ _ _ spacedAfter => ih spacedAfter
      · exact Result.Spaced.pure .normal spacedMiddle

/-- Further nesting of the body adds nothing but spare environments. -/
theorem run_spaced (spaced : Machine.Spaced spacing gaps machine other)
    (widens : Scopes.Widens gaps scopes wider) (spare fuel : Nat) :
    Result.Spaced spacing gaps Completion.Spaced (loop.run 1 scopes fuel machine)
      (loop.run (spare + 1) wider fuel other) := by
  unfold run
  cases loop.initializer with
  | none => exact rounds_spaced loop spaced widens spare fuel
  | some first =>
      have grown : spacing <+: spacing ++ [(other.heap.next, 0 :: gaps)] := List.prefix_append ..
      have executed := (spaced.enter spaced.current).execute fuel (first.resolve ([] :: scopes))
      rw [first.widen_resolve widens.enter] at executed
      have ran := Result.Spaced.proceed executed fun later after next _ spacedAfter =>
        rounds_spaced loop spacedAfter (widens.enter.extend first) spare fuel
      exact (ran.earlier fun _ => grown.trans).ensuring fun later after next grownMore spacedAfter =>
        spacedAfter.leaveTo (spaced.current.grow grownMore)

theorem run_resembles {policy : HostPolicy} (loop : ForLoop)
    (ready : machine.Ready policy scopes)
    (discreet : ∀ native ∈ machine.natives, native.Discreet (machine.Knows policy)) (fuel : Nat) :
    Result.Resembles machine (loop.run loop.nesting scopes fuel machine)
      (loop.run 1 scopes fuel machine) := by
  have itself := Machine.Spaced.of_sound ready.sound ready.hosted.known discreet
  have closed := Scopes.Widens.of_closed Gaps.closed_nil scopes
  have nested : loop.nesting = loop.increment.toList.length + 1 := by
    unfold nesting
    cases loop.increment <;> rfl
  rw [nested]
  exact run_spaced itself closed loop.increment.toList.length fuel

/--
The block that stands for a `for` loop means what the loop itself means, on every machine where it
can run. With as many new environments for the body as the block makes, both do exactly the same.
With a single new environment, they do the same up to spare environments, provided that the host
does not look inside functions.
-/
theorem desugar_preserves_meaning {policy : HostPolicy} {inFunction : Bool} (keyword : Token)
    (ready : machine.Ready policy scopes)
    (accepted : (loop.desugar keyword).Accepted inFunction scopes)
    (plain : loop.body.Plain) :
    Result.Equivalent Eq
        (fun fuel => Machine.execute fuel ((loop.desugar keyword).resolve scopes) machine)
        (fun fuel => loop.run loop.nesting scopes fuel machine) ∧
      ((∀ native ∈ machine.natives, native.Discreet (machine.Knows policy)) →
        Result.Equivalent (Result.Resembles machine)
          (fun fuel => Machine.execute fuel ((loop.desugar keyword).resolve scopes) machine)
          (fun fuel => loop.run 1 scopes fuel machine)) := by
  have exactly := ends_desugar_iff keyword ready accepted plain
  refine ⟨.of_forth_back ?_ ?_, fun discreet => .of_forth_back ?_ ?_⟩
  · exact fun result ends => ⟨result, (exactly result).mp ends, rfl⟩
  · exact fun result ends => ⟨result, (exactly result).mpr ends, rfl⟩
  · intro result ends
    obtain ⟨finishes, fuel, rfl⟩ := (exactly result).mp ends
    have similar := run_resembles loop ready discreet fuel
    exact ⟨_, ⟨mt similar.exhausted_iff.mp finishes, fuel, rfl⟩, similar⟩
  · intro direct ends
    obtain ⟨finishes, fuel, rfl⟩ := ends
    have similar := run_resembles loop ready discreet fuel
    have alsoEnds := (exactly _).mpr ⟨mt similar.exhausted_iff.mpr finishes, fuel, rfl⟩
    exact ⟨_, alsoEnds, similar⟩

theorem start_discreet (policy : HostPolicy) (readings : Nat → Float) :
    ∀ native ∈ (Machine.start readings).natives,
      native.Discreet ((Machine.start readings).Knows policy) := by
  intro native member
  obtain rfl : native = Machine.clock readings := Array.mem_singleton.mp member
  exact Machine.clock_respects (fun _ permitted number => permitted.2.1 (.number number) trivial) _

/-- The word that all nodes of a `for` loop carry. -/
def keyword : Token := { kind := .keyword .forWord, lexeme := "for", line := 1 }

/--
A loop over a variable `word` whose body makes a function that prints it, and then declares another
variable of the same name. The increment ends the loop, as it assigns the variable of the loop.
-/
def saysGo : ForLoop :=
  let word : Token := { kind := .identifier, lexeme := "word", line := 1 }
  let say : Token := { kind := .identifier, lexeme := "say", line := 1 }
  let mark : Token := { kind := .symbol .leftBrace, lexeme := "\x7b", line := 1 }
  { initializer := some (.declare word (some (.literal word (.string "go"))))
    test := some (.ident word ())
    increment := some (.assign word () (.literal word .nil))
    body := .block mark
      [.function say [] [.print mark (.ident word ())],
        .declare word (some (.literal word (.string "stop"))),
        .expression mark (.call mark (.ident say ()) [])] }

/-- What a statement that ended by itself has written. -/
def written : Result Completion → Option (Array Text)
  | .ok .normal machine => some machine.output
  | _ => none

theorem saysGo_preserves_meaning :
    (Machine.start fun _ => 0).Ready .valuesOnly [] ∧ (saysGo.desugar keyword).Accepted false [] ∧
      saysGo.body.Plain ∧
      (∀ native ∈ (Machine.start fun _ => 0).natives,
        native.Discreet ((Machine.start fun _ => 0).Knows .valuesOnly)) ∧
      written (saysGo.run 1 [] 12 (Machine.start fun _ => 0)) = some #[("go\n" : Text)] ∧
      Result.Equivalent Eq
        (fun fuel => Machine.execute fuel ((saysGo.desugar keyword).resolve [])
          (Machine.start fun _ => 0))
        (fun fuel => saysGo.run 2 [] fuel (Machine.start fun _ => 0)) ∧
      Result.Equivalent (Result.Resembles (Machine.start fun _ => 0))
        (fun fuel => Machine.execute fuel ((saysGo.desugar keyword).resolve [])
          (Machine.start fun _ => 0))
        (fun fuel => saysGo.run 1 [] fuel (Machine.start fun _ => 0)) := by
  have ready : (Machine.start fun _ => 0).Ready .valuesOnly [] :=
    .atTop (Machine.sound_start _ _) rfl
  have plain : saysGo.body.Plain := by
    simp [saysGo, Stmt.Plain, Stmt.isDeclaration, Stmt.WellFormed, Stmt.WellFormedAll,
      Expr.WellFormedOption, Expr.WellFormed, Expr.WellFormedAll]
  have accepted : (saysGo.desugar keyword).Accepted false [] := by
    refine ⟨?_, by decide +kernel⟩
    simp [saysGo, desugar, Stmt.forLoop, Stmt.withIncrement, Stmt.isDeclaration, Stmt.WellFormed,
      Stmt.WellFormedAll, Expr.WellFormedOption, Expr.WellFormed, Expr.WellFormedAll]
  have discreet := start_discreet .valuesOnly fun _ => 0
  obtain ⟨exactly, similarly⟩ := desugar_preserves_meaning keyword ready accepted plain
  exact ⟨ready, accepted, plain, discreet, by decide +kernel, exactly, similarly discreet⟩

end ForLoop

end Loxley
