import Loxley.Proofs.Spacing.Machine

/-!
# Running among spare environments

Code whose distances are widened does the same on the machine with the spare environments: it gives
the same values and the same output, and fails with the same errors.
-/

set_option autoImplicit false

namespace Loxley

/-- The same completion, up to where functions have their environments. -/
abbrev Completion.Spaced (spacing : Spacing) : Completion → Completion → Prop :=
  Completion.Alike (Value.Spaced spacing)

namespace Result

variable {α : Type}

/--
Both computations end in the same way, with values that are the same where the environments are
then. Neither shows how many environments a fault was about.
-/
abbrev Spaced (spacing : Spacing) (gaps : Gaps) (relation : Spacing → α → α → Prop) :
    Result α → Result α → Prop :=
  Alike (· <+: ·) Eq (fun _ _ => True) (Machine.Spaced · gaps) relation spacing

namespace Spaced

variable {spacing : Spacing} {gaps : Gaps} {relation : Spacing → α → α → Prop}

theorem pure {value content : α} {machine counterpart : Machine}
    (related : relation spacing value content)
    (spaced : Machine.Spaced spacing gaps machine counterpart) :
    Spaced spacing gaps relation (.ok value machine) (.ok content counterpart) :=
  .ok List.prefix_rfl related spaced

theorem fail {problem : RuntimeError} {machine counterpart : Machine}
    (spaced : Machine.Spaced spacing gaps machine counterpart) :
    Spaced spacing gaps relation (.error problem machine) (.error problem counterpart) :=
  .error List.prefix_rfl rfl spaced

end Spaced

end Result

namespace Machine.Spaced

variable {spacing : Spacing} {gaps : Gaps} {machine other : Machine}

theorem globalValue (spaced : Machine.Spaced spacing gaps machine other) (name : Text) :
    Option.Rel (Value.Spaced spacing) (machine.heap.lookup? globals name)
      (other.heap.lookup? globals name) := by
  obtain ⟨topGaps, top⟩ := spaced.heap.top
  exact spaced.heap.values globals globals topGaps top name

theorem read (spaced : Machine.Spaced spacing gaps machine other) (name : Token)
    (reference : Option Nat) :
    Result.Spaced spacing gaps Value.Spaced (machine.read name reference)
      (other.read name (reference.map gaps.reach)) := by
  cases reference with
  | none =>
      have looked := spaced.globalValue name.lexeme
      simp only [Option.map_none, Machine.read, Heap.get?, globals, Heap.chain_zero,
        List.findSome?_singleton] at looked ⊢
      generalize machine.heap.lookup? 0 name.lexeme = bound at looked
      generalize other.heap.lookup? 0 name.lexeme = found at looked
      cases looked with
      | none => exact .fail spaced
      | some related => exact .pure related spaced
  | some distance =>
      have reached := spaced.heap.ancestors _ _ _ spaced.current distance
      simp only [Option.map_some, Machine.read, Heap.getAt]
      generalize machine.heap.ancestor? machine.current distance = owner at reached
      generalize other.heap.ancestor? other.current (gaps.reach distance) = place at reached
      cases reached with
      | none => exact .fault List.prefix_rfl trivial spaced
      | @some owner place puts =>
          obtain ⟨ownerGaps, puts⟩ := puts
          have looked := spaced.heap.values owner place ownerGaps puts name.lexeme
          simp only
          generalize machine.heap.lookup? owner name.lexeme = bound at looked
          generalize other.heap.lookup? place name.lexeme = found at looked
          cases looked with
          | none => exact .fail spaced
          | some related => exact .pure related spaced

theorem assign (spaced : Machine.Spaced spacing gaps machine other) (name : Token)
    {value content : Value} (related : Value.Spaced spacing value content)
    (reference : Option Nat) :
    Result.Spaced spacing gaps Value.Spaced (machine.assign name value reference)
      (other.assign name content (reference.map gaps.reach)) := by
  cases reference with
  | none =>
      obtain ⟨topGaps, top⟩ := spaced.heap.top
      have bound := spaced.heap.binds top name.lexeme
      simp only [Option.map_none, Machine.assign, Heap.owner?, globals, Heap.chain_zero,
        List.find?_singleton, bound]
      cases machine.heap.binds 0 name.lexeme with
      | false => exact .fail spaced
      | true => exact .pure related (spaced.setHeap (spaced.heap.define top name.lexeme related))
  | some distance =>
      have reached := spaced.heap.ancestors _ _ _ spaced.current distance
      simp only [Option.map_some, Machine.assign, Heap.ownerAt]
      generalize machine.heap.ancestor? machine.current distance = owner at reached
      generalize other.heap.ancestor? other.current (gaps.reach distance) = place at reached
      cases reached with
      | none => exact .fault List.prefix_rfl trivial spaced
      | @some owner place puts =>
          obtain ⟨ownerGaps, puts⟩ := puts
          simp only [spaced.heap.binds puts name.lexeme]
          cases machine.heap.binds owner name.lexeme with
          | false => exact .fail spaced
          | true =>
              exact .pure related (spaced.setHeap (spaced.heap.define puts name.lexeme related))

end Machine.Spaced

/-- Machines that hold the same among spare environments are alike. -/
def Spacing.likeness : Likeness where
  World := Spacing
  Place := Gaps
  Later := (· <+: ·)
  code := .widening
  admits _ _ := True
  values := Value.Spaced
  scopes spacing gaps environment place := spacing.Puts environment place gaps
  machines := Machine.Spaced
  blames := Eq
  faults _ _ := True
  admits_inner _ := trivial
  grow grown related := related.grow grown
  similar related := related.similar
  literal := .ofLiteral
  closure := by
    rintro spacing _ _ (⟨isPlain⟩ | ⟨puts⟩)
    · exact absurd rfl (isPlain _)
    · exact ⟨_, _, by simp [Closure.adapt], puts, fun _ _ => trivial⟩
  writeLine text spaced := spaced.writeLine text
  declare spaced sameName related := spaced.declare sameName related
  declareFunction spaced _ := by
    simp only [Adaptation.token_widening, id, List.map_id]
    exact spaced.declareFunction _ _ _
  current spaced := spaced.current
  enter spaced puts := ⟨_, List.prefix_append .., spaced.enter puts⟩
  refl _ := List.prefix_rfl
  trans := List.IsPrefix.trans
  blame _ _ := rfl
  fault _ := trivial
  read reference spaced _ := spaced.read _ reference
  assign reference spaced _ related := spaced.assign _ related reference
  leaveTo grown spaced puts := spaced.leaveTo (puts.grow grown)
  depth spaced := spaced.depth
  atDepth _ spaced := spaced.atDepth rfl
  callLimit spaced := spaced.callLimit
  natives spaced := spaced.natives
  told spaced := spaced.told
  countCall identity spaced related := spaced.countCall identity related
  tell spaced related := spaced.tell related
  host spaced := spaced.host

namespace Machine.Spaced

variable {spacing : Spacing} {gaps : Gaps} {machine other : Machine}

theorem evaluate (spaced : Machine.Spaced spacing gaps machine other) (fuel : Nat)
    (expr : ResolvedExpr) :
    Result.Spaced spacing gaps Value.Spaced (Machine.evaluate fuel expr machine)
      (Machine.evaluate fuel (expr.widen gaps) other) :=
  (Spacing.likeness.correspondence.runs fuel).evaluate (fun _ _ => trivial) spaced

theorem execute (spaced : Machine.Spaced spacing gaps machine other) (fuel : Nat)
    (stmt : ResolvedStmt) :
    Result.Spaced spacing gaps Completion.Spaced (Machine.execute fuel stmt machine)
      (Machine.execute fuel (stmt.widen gaps) other) :=
  (Spacing.likeness.correspondence.runs fuel).execute (fun _ _ => trivial) spaced

end Machine.Spaced

end Loxley
