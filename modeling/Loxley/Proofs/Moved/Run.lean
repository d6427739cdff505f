import Loxley.Proofs.Moved.Machine

/-!
# Running the same code on other lines

Code that stands further down does the same as before: it gives the same values and the same output,
and its errors blame the same tokens, further down.
-/

set_option autoImplicit false

namespace Loxley

/-- Both computations end in the same way, with related values. -/
abbrev Result.Moved {α : Type} (moves : Moves) (relation : α → α → Prop) :
    Result α → Result α → Prop :=
  Result.Alike Eq (RuntimeError.Moved moves) Eq (fun _ => Machine.Moved moves)
    (fun _ => relation) ()

variable {moves : Moves} {machine other : Machine} {lines : Nat}

theorem RuntimeError.Moved.blame {token : Token} (movable : moves lines token) (mishap : Mishap) :
    RuntimeError.Moved moves { token, mishap } { token := token.down lines, mishap } :=
  ⟨lines, movable, rfl⟩

namespace Machine.Moved

theorem undefined {α : Type} {relation : α → α → Prop} (moved : Machine.Moved moves machine other)
    {name : Token} (movable : moves lines name) :
    Result.Moved moves relation (machine.undefined name) (other.undefined (name.down lines)) :=
  .error rfl (.blame movable _) moved

theorem read (moved : Machine.Moved moves machine other) {name : Token}
    (movable : moves lines name) (reference : Option Nat) :
    Result.Moved moves (Value.Moved moves) (machine.read name reference)
      (other.read (name.down lines) reference) := by
  cases reference with
  | none =>
      have looked := moved.heap.lookup? globals name.lexeme
      simp only [Machine.read, Heap.get?, globals, Heap.chain_zero, List.findSome?_singleton,
        Token.lexeme_down] at looked ⊢
      generalize machine.heap.lookup? 0 name.lexeme = bound at looked
      generalize other.heap.lookup? 0 name.lexeme = found at looked
      cases looked with
      | none => exact moved.undefined movable
      | some movedValue => exact .ok rfl movedValue moved
  | some distance =>
      simp only [Machine.read, Heap.getAt, Heap.ancestor?, moved.current, moved.heap.chain,
        Token.lexeme_down]
      cases (machine.heap.chain machine.current)[distance]? with
      | none => exact .fault rfl rfl moved
      | some owner =>
          have looked := moved.heap.lookup? owner name.lexeme
          simp only
          generalize machine.heap.lookup? owner name.lexeme = bound at looked
          generalize other.heap.lookup? owner name.lexeme = found at looked
          cases looked with
          | none => exact moved.undefined movable
          | some movedValue => exact .ok rfl movedValue moved

theorem assign (moved : Machine.Moved moves machine other) {name : Token}
    (movable : moves lines name) {before after : Value}
    (movedValue : Value.Moved moves before after) (reference : Option Nat) :
    Result.Moved moves (Value.Moved moves) (machine.assign name before reference)
      (other.assign (name.down lines) after reference) := by
  cases reference with
  | none =>
      simp only [Machine.assign, Token.lexeme_down, moved.heap.owner?]
      cases machine.heap.owner? globals name.lexeme with
      | none => exact moved.undefined movable
      | some owner =>
          exact .ok rfl movedValue (moved.setHeap (moved.heap.define _ _ movedValue))
  | some distance =>
      have owners : other.heap.ownerAt other.current distance name.lexeme =
          machine.heap.ownerAt machine.current distance name.lexeme := by
        rw [moved.current, moved.heap.ownerAt]
      simp only [Machine.assign, Token.lexeme_down, owners]
      cases machine.heap.ownerAt machine.current distance name.lexeme with
      | error reason => exact .fault rfl rfl moved
      | ok owner =>
          cases owner with
          | none => exact moved.undefined movable
          | some owner =>
              exact .ok rfl movedValue (moved.setHeap (moved.heap.define _ _ movedValue))

end Machine.Moved

/-- Machines with the same code on other lines are alike. -/
def Moves.likeness (moves : Moves) : Likeness where
  World := Unit
  Place := Nat
  Later := Eq
  code := .down
  admits := moves
  values _ := Value.Moved moves
  scopes _ _ := Eq
  machines _ _ := Machine.Moved moves
  blames := RuntimeError.Moved moves
  faults := Eq
  admits_inner movable := movable
  grow _ moved := moved
  similar moved := moved.similar
  literal _ := .ofLiteral moves
  closure := by
    rintro _ closure _ ⟨lines, movable, rfl⟩
    obtain ⟨_, inside⟩ := List.forall_mem_cons.mp movable
    refine ⟨lines, closure.scope, ?_, rfl, (List.forall_mem_append.mp inside).2⟩
    rw [Closure.adapt_down]
    rfl
  writeLine text moved := moved.writeLine text
  declare moved sameName movedValue := moved.declare sameName movedValue
  declareFunction moved movable := by
    rw [Stmt.adaptAll_down]
    exact moved.declareFunction movable
  current moved := moved.current.symm
  enter moved same := ⟨(), rfl, same ▸ moved.enter _⟩
  refl _ := rfl
  trans := Eq.trans
  blame mishap movable := .blame movable mishap
  fault _ := rfl
  read reference moved movable := moved.read movable reference
  assign reference moved movable movedValue := moved.assign movable movedValue reference
  leaveTo _ moved same := same ▸ moved.leaveTo _
  depth moved := moved.depth
  atDepth _ moved := moved.atDepth rfl
  callLimit moved := moved.callLimit
  natives moved := moved.natives
  told moved := moved.told
  countCall identity moved movedAll := moved.countCall identity movedAll
  tell moved replied := moved.tell replied
  host moved native member :=
    (moved.host native member).fewer fun _ permitted => permitted.choose_spec.2

theorem Machine.Moved.interpret (moved : Machine.Moved moves machine other) (fuel : Nat)
    {program : List ResolvedStmt} (movable : moves.All lines (Stmt.tokensAll program)) :
    Result.Moved moves Eq (Machine.interpret fuel program machine)
      (Machine.interpret fuel (Stmt.downAll lines program) other) := by
  rw [← Stmt.adaptAll_down]
  exact moves.likeness.correspondence.interpret fuel movable moved

end Loxley
