import Loxley.Proofs.Walk

/-!
# Distances are lexical scoping

The distance that scope analysis records at a use of a name is the number of scopes between the use
and the innermost scope around it that declares the name before the use. A use without such a scope
has no distance.
-/

set_option autoImplicit false

namespace Loxley

/--
A name at an address belongs to the scope that is a number of scopes outwards: this one declares the
name before the address, and no scope further inside does.
-/
def Part.BoundAt {Reference : Type} (whole : Part Reference) (address : Address) (name : Text)
    (distance : Nat) : Prop :=
  ∃ scope, (whole.scopesAround address)[distance]? = some scope ∧
    whole.DeclaresBefore address (some scope) name ∧
    ∀ nearer < distance, ∀ other, (whole.scopesAround address)[nearer]? = some other →
      ¬ whole.DeclaresBefore address (some other) name

theorem Scopes.distance?_eq_some_iff {scopes : Scopes} {openers : List Address} {name : Text}
    {declares : Address → Prop}
    (agree : List.Forall₂ (fun scope opener => Scope.declares scope name = true ↔ declares opener)
      scopes openers) (distance : Nat) :
    scopes.distance? name = some distance ↔
      ∃ opener, openers[distance]? = some opener ∧ declares opener ∧
        ∀ nearer < distance, ∀ other, openers[nearer]? = some other → ¬ declares other := by
  induction agree generalizing distance with
  | nil => simp
  | @cons scope opener scopes openers same _ ih =>
      rw [Scopes.distance?_cons]
      by_cases declared : scope.declares name = true
      · have here := same.mp declared
        cases distance with
        | zero => simp [declared, here]
        | succ distance =>
            simp only [declared, if_true]
            refine ⟨fun equal => by simp at equal, ?_⟩
            rintro ⟨_, _, _, nearest⟩
            exact absurd here (nearest 0 (Nat.succ_pos distance) opener rfl)
      · have elsewhere : ¬ declares opener := fun here => declared (same.mpr here)
        cases distance with
        | zero => simp [declared, elsewhere]
        | succ distance =>
            rw [if_neg declared, Option.map_eq_some_iff]
            simp only [Nat.add_right_cancel_iff, exists_eq_right, ih, List.getElem?_cons_succ]
            refine exists_congr fun found => and_congr_right fun _ => and_congr_right fun _ => ?_
            constructor
            · rintro nearest (_ | nearer) less other
              · rintro ⟨⟩
                exact elsewhere
              · exact nearest nearer (Nat.lt_of_succ_lt_succ less) other
            · exact fun nearest nearer less => nearest (nearer + 1) (Nat.succ_lt_succ less)

namespace Part

/-- Gives every name in a part its distance. -/
def resolve (scopes : Scopes) : Part Unit → Part (Option Nat)
  | program body => program (Stmt.resolveAll scopes body)
  | stmt value => stmt (value.resolve scopes)
  | parameter name => parameter name
  | expr value => expr (value.resolve scopes)

theorem map_expr_resolveAll (scopes : Scopes) (values : List (Expr Unit)) :
    (Expr.resolveAll scopes values).map expr = inTurn resolve scopes (values.map expr) := by
  induction values with
  | nil => rfl
  | cons first rest ih => simpa [Expr.resolveAll, inTurn, extend, resolve] using ih

theorem map_stmt_resolveAll (scopes : Scopes) (body : List (Stmt Unit)) :
    (Stmt.resolveAll scopes body).map stmt = inTurn resolve scopes (body.map stmt) := by
  induction body generalizing scopes with
  | nil => rfl
  | cons first rest ih => simpa [Stmt.resolveAll, inTurn, extend, resolve] using ih _

theorem map_parameter (scopes : Scopes) (parameters : List Token) :
    parameters.map parameter = inTurn resolve scopes (parameters.map parameter) := by
  induction parameters generalizing scopes with
  | nil => rfl
  | cons first rest ih => simpa [inTurn, resolve] using ih _

/-- Analysing a part means analysing its children, each with the scopes at it. -/
theorem children_resolve (scopes : Scopes) (part : Part Unit) :
    (part.resolve scopes).children = part.eachChild resolve scopes := by
  cases part with
  | program body =>
      rw [eachChild_of_closed resolve scopes fun _ => rfl]
      exact map_stmt_resolveAll scopes body
  | parameter => rfl
  | expr value =>
      rw [eachChild_of_closed resolve scopes fun _ => rfl]
      cases value with
      | literal | ident | group | unary | binary | logical | assign => rfl
      | call _ callee arguments =>
          exact congrArg _ (map_expr_resolveAll scopes arguments)
  | stmt value =>
      cases value with
      | expression | print | ifThen | ifElse | loop => rfl
      | declare _ value | giveBack _ value => cases value <;> rfl
      | block _ body =>
          rw [eachChild_of_opens resolve scopes fun _ => rfl]
          exact map_stmt_resolveAll ([] :: scopes) body
      | function name parameters body =>
          rw [eachChild_of_opens resolve scopes fun _ => rfl, children, inTurn_append,
            ← map_parameter, foldl_extend_parameter, ← map_stmt_resolveAll]
          rfl

theorem at?_resolve (scopes : Scopes) (part : Part Unit) (address : Address) :
    (part.resolve scopes).at? address =
      (part.at? address).map (resolve (part.scopesAt scopes address)) := by
  induction address generalizing part scopes with
  | nil => rfl
  | cons index inner ih =>
      rw [at?, at?, children_resolve, eachChild, List.getElem?_mapIdx]
      cases isChild : part.children[index]? with
      | none => rfl
      | some child => simp [ih, scopesAt_cons isChild]

theorem use?_resolve (scopes : Scopes) (part : Part Unit) :
    (part.resolve scopes).use? = part.use?.map fun use =>
      { usage := use.usage, name := use.name, reference := scopes.distance? use.name.lexeme } := by
  cases part with
  | program | parameter => rfl
  | stmt value => cases value <;> rfl
  | expr value => cases value <;> rfl

theorem distance?_scopesAt {part found : Part Unit} {address : Address}
    (reached : part.at? address = some found) (name : Text) (distance : Nat) :
    (part.scopesAt [] address).distance? name = some distance ↔
      part.BoundAt address name distance :=
  Scopes.distance?_eq_some_iff
    ((scopesAt_agrees reached).imp fun _ _ agrees => agrees name) distance

end Part

/--
The analysed program has the uses of names that the program has. A use has a distance exactly if it
belongs to a scope around it, and then it is the number of scopes between them.
-/
theorem Stmt.resolveProgram_records_binding_scopes (program : List (Stmt Unit)) (address : Address)
    (use : NameUse (Option Nat)) :
    ((Part.program (Stmt.resolveProgram program)).at? address).bind Part.use? = some use ↔
      ((Part.program program).at? address).bind Part.use? =
        some { usage := use.usage, name := use.name, reference := () } ∧
      ∀ distance, use.reference = some distance ↔
        (Part.program program).BoundAt address use.name.lexeme distance := by
  have analysed : (Part.program (Stmt.resolveProgram program)).at? address = _ :=
    Part.at?_resolve [] (.program program) address
  rw [analysed]
  cases reached : (Part.program program).at? address with
  | none => simp
  | some found =>
      simp only [← Part.distance?_scopesAt reached, Option.map_some, Option.bind_some,
        Part.use?_resolve, Option.map_eq_some_iff]
      constructor
      · rintro ⟨written, isUse, rfl⟩
        exact ⟨isUse, fun _ => Iff.rfl⟩
      · rintro ⟨isUse, agrees⟩
        refine ⟨_, isUse, ?_⟩
        rw [← Option.ext agrees]

end Loxley
