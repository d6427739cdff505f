import Loxley.Proofs.Likeness

/-!
# Machines with the same code on other lines

Two machines that differ only in the lines at which the code of their functions stands. What a
program can see of a function is its identity, its name and how many arguments it takes, so no
operation tells the two machines apart.
-/

set_option autoImplicit false

namespace Loxley

/-! ## Code further down -/

/-- Code that stands so many lines further down. -/
def Adaptation.down : Adaptation Nat where
  token := Token.down
  reference _ := id
  inner := id
  lexeme_token _ _ := rfl

@[simp] theorem Adaptation.token_down (lines : Nat) :
    Adaptation.down.token lines = Token.down lines := rfl

@[simp] theorem Adaptation.reference_down (lines : Nat) :
    Adaptation.down.reference lines = id := rfl

@[simp] theorem Adaptation.inner_down (lines : Nat) : Adaptation.down.inner lines = lines := rfl

mutual

theorem Expr.adapt_down (lines : Nat) (expr : ResolvedExpr) :
    expr.adapt .down lines = expr.down lines := by
  cases expr with
  | literal | ident => rfl
  | group paren inner => simp [Expr.adapt, Expr.down, inner.adapt_down lines]
  | unary op token operand => simp [Expr.adapt, Expr.down, operand.adapt_down lines]
  | binary op token left right | logical op token left right =>
      simp [Expr.adapt, Expr.down, left.adapt_down lines, right.adapt_down lines]
  | assign name reference value => simp [Expr.adapt, Expr.down, value.adapt_down lines]
  | call paren callee arguments =>
      simp [Expr.adapt, Expr.down, callee.adapt_down lines, Expr.adaptAll_down lines arguments]

theorem Expr.adaptAll_down (lines : Nat) (exprs : List ResolvedExpr) :
    Expr.adaptAll .down lines exprs = Expr.downAll lines exprs := by
  cases exprs with
  | nil => rfl
  | cons first rest =>
      simp [Expr.adaptAll, Expr.downAll, first.adapt_down lines, Expr.adaptAll_down lines rest]

end

theorem Expr.map_adapt_down (lines : Nat) (expr : Option ResolvedExpr) :
    expr.map (Expr.adapt .down lines) = expr.map (Expr.down lines) :=
  congrArg expr.map (funext (Expr.adapt_down lines))

mutual

theorem Stmt.adapt_down (lines : Nat) (stmt : ResolvedStmt) :
    stmt.adapt .down lines = stmt.down lines := by
  cases stmt with
  | expression token value | print token value =>
      simp [Stmt.adapt, Stmt.down, value.adapt_down lines]
  | declare token value | giveBack token value =>
      simp [Stmt.adapt, Stmt.down, Expr.map_adapt_down lines value]
  | block brace body => simp [Stmt.adapt, Stmt.down, Stmt.adaptAll_down lines body]
  | ifThen keyword test consequent =>
      simp [Stmt.adapt, Stmt.down, test.adapt_down lines, consequent.adapt_down lines]
  | ifElse keyword test consequent alternative =>
      simp [Stmt.adapt, Stmt.down, test.adapt_down lines, consequent.adapt_down lines,
        alternative.adapt_down lines]
  | loop keyword test body =>
      simp [Stmt.adapt, Stmt.down, test.adapt_down lines, body.adapt_down lines]
  | function name parameters body =>
      simp [Stmt.adapt, Stmt.down, Stmt.adaptAll_down lines body]

theorem Stmt.adaptAll_down (lines : Nat) (stmts : List ResolvedStmt) :
    Stmt.adaptAll .down lines stmts = Stmt.downAll lines stmts := by
  cases stmts with
  | nil => rfl
  | cons first rest =>
      simp [Stmt.adaptAll, Stmt.downAll, first.adapt_down lines, Stmt.adaptAll_down lines rest]

end

/-! ## Values and environments -/

section Values

/-- The tokens that a closure carries. -/
def Closure.tokens (closure : Closure) : List Token :=
  closure.name :: (closure.parameters ++ Stmt.tokensAll closure.body)

/-- The same closure with its code a number of lines further down. -/
def Closure.down (lines : Nat) (closure : Closure) : Closure :=
  { closure with
    name := closure.name.down lines
    parameters := closure.parameters.map (Token.down lines)
    body := Stmt.downAll lines closure.body }

namespace Value

/-- The tokens that a value carries. -/
def tokens : Value → List Token
  | .function closure => closure.tokens
  | _ => []

/-- The same value with its code a number of lines further down. -/
def down (lines : Nat) : Value → Value
  | .function closure => .function (closure.down lines)
  | other => other

theorem down_zero (value : Value) : value.down 0 = value := by
  cases value with
  | nil | bool | number | string | native | foreign => rfl
  | function closure =>
      have same : Token.down 0 = id := funext Token.down_zero
      simp [down, Closure.down, same, Stmt.downAll_zero]

theorem similar_down (lines : Nat) (value : Value) : value.Similar (value.down lines) := by
  cases value with
  | function closure => exact .function rfl rfl (List.length_map ..)
  | nil | bool | number | string | native | foreign => exact .plain (by simp)

end Value

theorem Closure.adapt_down (lines : Nat) (closure : Closure) :
    closure.adapt .down lines closure.scope = closure.down lines := by
  simp [Closure.adapt, Closure.down, Stmt.adaptAll_down]

end Values

/-- Which tokens may stand how many lines further down. -/
abbrev Moves := Nat → Token → Prop

/-- All the tokens in a list may stand so many lines further down. -/
def Moves.All (moves : Moves) (lines : Nat) (tokens : List Token) : Prop :=
  ∀ token ∈ tokens, moves lines token

section Relations

variable (moves : Moves)

/-- The same value, with its code as a whole further down. -/
def Value.Moved (before after : Value) : Prop :=
  ∃ lines, moves.All lines before.tokens ∧ after = before.down lines

/-- The same error, with its token further down. -/
def RuntimeError.Moved (before after : RuntimeError) : Prop :=
  ∃ lines, moves lines before.token ∧ after = { before with token := before.token.down lines }

/-- A host function that does the same on whatever lines the code of functions stands. -/
def Native.IgnoresLines (native : Native) : Prop :=
  native.Respects (RuntimeError.Moved moves) (· = Value.Moved moves)

/-- The same environments, with the code of functions further down. -/
structure Heap.Moved (before after : Heap) : Prop where
  next : after.next = before.next
  enclosing : ∀ environment, after.enclosing? environment = before.enclosing? environment
  bindings : ∀ environment, List.Forall₂ (Bound (Value.Moved moves)) (before.bindings environment)
    (after.bindings environment)

/-- The same machine, with the code of functions further down, on a host that ignores lines. -/
structure Machine.Moved (before after : Machine) : Prop where
  heap : Heap.Moved moves before.heap after.heap
  current : after.current = before.current
  depth : after.depth = before.depth
  callLimit : after.callLimit = before.callLimit
  closures : after.closures = before.closures
  natives : after.natives = before.natives
  told : List.Forall₂ (HostEvent.Alike (RuntimeError.Moved moves) (Value.Moved moves)) before.told
    after.told
  output : after.output = before.output
  host : ∀ native ∈ before.natives, Native.IgnoresLines moves native

end Relations

variable {moves : Moves}

namespace Value.Moved

theorem ofLiteral (moves : Moves) (literal : Literal) :
    Value.Moved moves (.ofLiteral literal) (.ofLiteral literal) := by
  refine ⟨0, ?_, (Value.down_zero _).symm⟩
  cases literal <;> simp [Value.ofLiteral, Value.tokens, Moves.All]

theorem similar {before after : Value} (moved : Value.Moved moves before after) :
    before.Similar after := by
  obtain ⟨lines, _, rfl⟩ := moved
  exact before.similar_down lines

end Value.Moved

namespace Heap

theorem define_of_not_lt {heap : Heap} {environment : EnvironmentId}
    (missing : ¬ environment < heap.next) (name : Text) (value : Value) :
    heap.define environment name value = heap := by
  have outside : ¬ environment < heap.environments.size := missing
  simp [define, Array.modify, Array.modifyM, outside]

end Heap

theorem Environment.setBinding_moved {bindings others : List (Text × Value)}
    (related : List.Forall₂ (Bound (Value.Moved moves)) bindings others) (name : Text)
    {before after : Value} (moved : Value.Moved moves before after) :
    List.Forall₂ (Bound (Value.Moved moves)) (setBinding name before bindings)
      (setBinding name after others) := by
  induction related with
  | nil => exact .cons ⟨rfl, moved⟩ .nil
  | @cons binding other bindings others here rest ih =>
      obtain ⟨bound, old⟩ := binding
      obtain ⟨_, otherOld⟩ := other
      obtain ⟨rfl, oldMoved⟩ := here
      simp only [setBinding]
      split
      · exact .cons ⟨rfl, moved⟩ rest
      · exact .cons ⟨rfl, oldMoved⟩ ih

namespace Heap.Moved

variable {heap other : Heap}

theorem lookup? (moved : Heap.Moved moves heap other) (environment : EnvironmentId)
    (name : Text) :
    Option.Rel (Value.Moved moves) (heap.lookup? environment name)
      (other.lookup? environment name) := by
  rw [Heap.lookup?_eq_lookup_bindings, Heap.lookup?_eq_lookup_bindings]
  exact Bound.lookup (moved.bindings environment) name

theorem binds (moved : Heap.Moved moves heap other) (environment : EnvironmentId) (name : Text) :
    other.binds environment name = heap.binds environment name := by
  have looked := moved.lookup? environment name
  simp only [Heap.binds]
  generalize heap.lookup? environment name = bound at looked
  generalize other.lookup? environment name = found at looked
  cases looked <;> rfl

theorem chain (moved : Heap.Moved moves heap other) (environment : EnvironmentId) :
    other.chain environment = heap.chain environment :=
  Heap.chain_congr fun inner _ => moved.enclosing inner

theorem owner? (moved : Heap.Moved moves heap other) (environment : EnvironmentId) (name : Text) :
    other.owner? environment name = heap.owner? environment name := by
  simp only [Heap.owner?, moved.chain, moved.binds]

theorem ownerAt (moved : Heap.Moved moves heap other) (environment : EnvironmentId)
    (distance : Nat) (name : Text) :
    other.ownerAt environment distance name = heap.ownerAt environment distance name := by
  simp only [Heap.ownerAt, Heap.ancestor?, moved.chain, moved.binds]

theorem define (moved : Heap.Moved moves heap other) (environment : EnvironmentId) (name : Text)
    {before after : Value} (movedValue : Value.Moved moves before after) :
    Heap.Moved moves (heap.define environment name before)
      (other.define environment name after) := by
  by_cases known : environment < heap.next
  · have alsoKnown : environment < other.next := moved.next ▸ known
    refine ⟨by simp [moved.next], by simp [moved.enclosing], fun sought => ?_⟩
    rw [Heap.bindings_define heap known, Heap.bindings_define other alsoKnown]
    split
    · exact Environment.setBinding_moved (moved.bindings environment) name movedValue
    · exact moved.bindings sought
  · have alsoMissing : ¬ environment < other.next := moved.next ▸ known
    rwa [Heap.define_of_not_lt known, Heap.define_of_not_lt alsoMissing]

theorem create (moved : Heap.Moved moves heap other) (enclosing : Option EnvironmentId) :
    Heap.Moved moves (heap.create enclosing) (other.create enclosing) := by
  refine ⟨by simp [moved.next], fun environment => ?_, by simpa using moved.bindings⟩
  have sizes : other.environments.size = heap.environments.size := moved.next
  have outer := moved.enclosing environment
  simp only [Heap.enclosing?, Heap.create, Array.getElem?_push, sizes] at outer ⊢
  split
  · rfl
  · exact outer

theorem contents (moved : Heap.Moved moves heap other) (environment : EnvironmentId) :
    List.Forall₂ (Bound (Value.Moved moves)) (heap.contents environment)
      (other.contents environment) := by
  have related := moved.bindings environment
  simp only [Heap.contents, Heap.names_eq_map_bindings, Heap.lookup?_eq_lookup_bindings,
    ← Bound.names related]
  exact Bound.contents related _

end Heap.Moved

theorem Value.moved_self {value : Value} (stays : moves.All 0 value.tokens) :
    Value.Moved moves value value :=
  ⟨0, stays, value.down_zero.symm⟩

/-- The tokens of all functions that are held in a heap. -/
def Heap.tokens (heap : Heap) : List Token :=
  heap.environments.toList.flatMap fun environment =>
    environment.bindings.flatMap fun binding => binding.2.tokens

theorem Heap.moved_self {heap : Heap} (stays : moves.All 0 heap.tokens) :
    Heap.Moved moves heap heap := by
  refine ⟨rfl, fun _ => rfl, fun identity => List.forall₂_same.mpr fun binding member => ?_⟩
  refine ⟨rfl, Value.moved_self fun token inside => stays token ?_⟩
  simp only [Heap.bindings] at member
  cases found : heap.environments[identity]? with
  | none => simp [found] at member
  | some environment =>
      have held : environment ∈ heap.environments.toList :=
        Array.mem_toList_iff.mpr (Array.mem_of_getElem? found)
      simp only [found, Option.map_some, Option.getD_some] at member
      exact List.mem_flatMap.mpr ⟨environment, held, List.mem_flatMap.mpr ⟨binding, member, inside⟩⟩

/-- The tokens of all that the host got to know in an event. -/
def HostEvent.tokens : HostEvent → List Token
  | .called _ arguments => arguments.flatMap Value.tokens
  | .replied reply =>
    reply.value.tokens ++ (reply.error.bind (·.cause)).toList.map (·.token)

/-- The tokens that a machine holds. -/
def Machine.tokens (machine : Machine) : List Token :=
  machine.heap.tokens ++ machine.told.flatMap HostEvent.tokens

theorem HostEvent.moved_self {event : HostEvent} (stays : moves.All 0 event.tokens) :
    HostEvent.Alike (RuntimeError.Moved moves) (Value.Moved moves) event event := by
  cases event with
  | called identity arguments =>
      refine .called (List.forall₂_same.mpr fun value held => Value.moved_self fun token inside => ?_)
      exact stays token (List.mem_flatMap.mpr ⟨value, held, inside⟩)
  | replied reply =>
      obtain ⟨value, error⟩ := reply
      obtain ⟨inValue, inError⟩ := List.forall_mem_append.mp stays
      refine .replied ⟨Value.moved_self inValue, ?_⟩
      cases error with
      | none => exact .none
      | some error =>
          obtain ⟨text, cause⟩ := error
          refine .some ⟨?_, fun _ => rfl⟩
          cases cause with
          | none => exact .none
          | some problem =>
              exact .some ⟨0, inError problem.token (List.mem_singleton_self _), by simp⟩

namespace Machine.Moved

variable {machine other : Machine}

/-- A machine is the same as itself, if its code may stay where it is. -/
protected theorem refl (stays : moves.All 0 machine.tokens)
    (host : ∀ native ∈ machine.natives, Native.IgnoresLines moves native) :
    Machine.Moved moves machine machine := by
  obtain ⟨inHeap, inTold⟩ := List.forall_mem_append.mp stays
  refine ⟨Heap.moved_self inHeap, rfl, rfl, rfl, rfl, rfl, ?_, rfl, host⟩
  refine List.forall₂_same.mpr fun event held => HostEvent.moved_self fun token inside => ?_
  exact inTold token (List.mem_flatMap.mpr ⟨event, held, inside⟩)

theorem setHeap (moved : Machine.Moved moves machine other) {heap otherHeap : Heap}
    (movedHeap : Heap.Moved moves heap otherHeap) :
    Machine.Moved moves { machine with heap } { other with heap := otherHeap } :=
  { moved with heap := movedHeap }

theorem atDepth (moved : Machine.Moved moves machine other) {depth otherDepth : Nat}
    (same : otherDepth = depth) :
    Machine.Moved moves { machine with depth } { other with depth := otherDepth } :=
  { moved with depth := same }

theorem leaveTo (moved : Machine.Moved moves machine other) (environment : EnvironmentId) :
    Machine.Moved moves (Machine.leaveTo environment machine)
      (Machine.leaveTo environment other) :=
  { moved with current := rfl }

theorem enter (moved : Machine.Moved moves machine other) (outer : EnvironmentId) :
    Machine.Moved moves (machine.enter outer) (other.enter outer) :=
  { moved with heap := moved.heap.create (some outer), current := moved.heap.next }

/-- What distances have been kept makes no difference to how code runs. -/
theorem resolve (moved : Machine.Moved moves machine other) (program others : List ResolvedStmt) :
    Machine.Moved moves (machine.resolve program) (other.resolve others) :=
  { moved with }

theorem writeLine (moved : Machine.Moved moves machine other) (text : Text) :
    Machine.Moved moves (machine.writeLine text) (other.writeLine text) :=
  { moved with output := congrArg (·.push (text ++ [Text.newline])) moved.output }

theorem countCall (moved : Machine.Moved moves machine other) (identity : Nat)
    {arguments contents : List Value}
    (movedAll : List.Forall₂ (Value.Moved moves) arguments contents) :
    Machine.Moved moves (machine.countCall identity arguments)
      (other.countCall identity contents) := by
  refine { moved with natives := ?_, told := .cons (.called movedAll) moved.told, host := ?_ }
  · simp only [Machine.countCall, moved.natives]
  · intro native member
    obtain ⟨index, inside, rfl⟩ := Array.mem_iff_getElem.mp member
    have sameSize : index < machine.natives.size := by simpa [Machine.countCall] using inside
    have kept := moved.host _ (Array.getElem_mem sameSize)
    simp only [Machine.countCall, Array.getElem_modify]
    split
    · exact kept
    · exact kept

theorem tell (moved : Machine.Moved moves machine other) {reply given : HostReply}
    (replied : HostReply.Alike (RuntimeError.Moved moves) (Value.Moved moves) reply given) :
    Machine.Moved moves (machine.tell reply) (other.tell given) :=
  { moved with told := .cons (.replied replied) moved.told }

theorem declare (moved : Machine.Moved moves machine other) {name renamed : Token}
    (sameName : renamed.lexeme = name.lexeme) {before after : Value}
    (movedValue : Value.Moved moves before after) :
    Machine.Moved moves (machine.declare name before) (other.declare renamed after) := by
  refine moved.setHeap ?_
  rw [moved.current, sameName]
  exact moved.heap.define machine.current name.lexeme movedValue

theorem declareFunction (moved : Machine.Moved moves machine other) {name : Token} {lines : Nat}
    {parameters : List Token} {body : List ResolvedStmt}
    (movable : moves.All lines (Stmt.function name parameters body).tokens) :
    Machine.Moved moves (machine.declareFunction name parameters body)
      (other.declareFunction (name.down lines) (parameters.map (Token.down lines))
        (Stmt.downAll lines body)) := by
  refine { moved with heap := ?_, closures := congrArg (· + 1) moved.closures }
  simp only [Machine.declareFunction, moved.current, moved.closures]
  exact moved.heap.define machine.current name.lexeme ⟨lines, movable, rfl⟩

end Machine.Moved

end Loxley
