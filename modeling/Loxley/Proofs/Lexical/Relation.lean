import Loxley.Proofs.Correspondence
import Loxley.Proofs.Lexical.Semantics

/-!
# Environments and cells

How the machine and the lexical semantics correspond: every local variable of an environment has a
cell of its own that holds the same value. The chain of environments may gain variables that the
names in sight lack, but a distance always leads to the variable whose cell the names give.
-/

set_option autoImplicit false

namespace Loxley

section OwnAssignments

variable {Reference : Type}

/-- Whether an expression assigns a variable of some name. -/
def Expr.assigns (expr : Expr Reference) (name : Text) : Bool :=
  expr.uses.any fun use => use.usage == .assign && use.name.lexeme == name

mutual

/-- Whether the initializer of some local variable assigns a variable of that very name. -/
def Stmt.assignsOwn (isLocal : Bool) : Stmt Reference → Bool
  | .declare name (some initializer) => isLocal && initializer.assigns name.lexeme
  | .block _ body => Stmt.assignsOwnAll true body
  | .ifThen _ _ consequent => consequent.assignsOwn isLocal
  | .ifElse _ _ consequent alternative =>
    consequent.assignsOwn isLocal || alternative.assignsOwn isLocal
  | .loop _ _ body => body.assignsOwn true
  | .function _ _ body => Stmt.assignsOwnAll true body
  | .expression _ _ | .print _ _ | .declare _ none | .giveBack _ _ => false

/-- The same of a sequence of statements. -/
def Stmt.assignsOwnAll (isLocal : Bool) : List (Stmt Reference) → Bool
  | [] => false
  | first :: rest => first.assignsOwn isLocal || Stmt.assignsOwnAll isLocal rest

end

end OwnAssignments

namespace Lexical

/-- The cells of the local variables of all environments. -/
abbrev Layout := EnvironmentId → Text → Option CellId

namespace Layout

/-- A later layout keeps all cells. -/
def Grows (before after : Layout) : Prop :=
  ∀ environment name cell, before environment name = some cell → after environment name = some cell

protected theorem Grows.refl (layout : Layout) : layout.Grows layout :=
  fun _ _ _ found => found

protected theorem Grows.trans {before middle after : Layout} (first : before.Grows middle)
    (second : middle.Grows after) : before.Grows after :=
  fun environment name cell found => second environment name cell (first environment name cell found)

/-- Gives a variable a cell. -/
def place (layout : Layout) (environment : EnvironmentId) (name : Text) (cell : CellId) : Layout :=
  fun other sought =>
    if other = environment ∧ sought = name then some cell else layout other sought

@[simp] theorem place_self (layout : Layout) (environment : EnvironmentId) (name : Text)
    (cell : CellId) : layout.place environment name cell environment name = some cell := by
  simp [place]

theorem grows_place {layout : Layout} {environment : EnvironmentId} {name : Text}
    (fresh : layout environment name = none) (cell : CellId) :
    layout.Grows (layout.place environment name cell) := by
  intro other sought held found
  by_cases here : other = environment ∧ sought = name
  · obtain ⟨rfl, rfl⟩ := here
    cases fresh.symm.trans found
  · simpa [place, here] using found

end Layout

/-- Names in sight have the cells of the variables that their distances lead to. -/
structure Sights (layout : Layout) (heap : Heap) (scopes : Scopes) (environment : EnvironmentId)
    (names : Names) : Prop where
  absent : ∀ name, scopes.distance? name = none → names.lookup name = none
  present : ∀ name distance, scopes.distance? name = some distance →
    ∃ owner cell, heap.ancestor? environment distance = some owner ∧
      layout owner name = some cell ∧ names.lookup name = some cell

namespace Sights

variable {layout : Layout} {heap : Heap} {scopes : Scopes} {environment : EnvironmentId}
  {names : Names}

theorem top (layout : Layout) (heap : Heap) (environment : EnvironmentId) :
    Sights layout heap [] environment [] where
  absent _ _ := rfl
  present _ _ found := by simp at found

theorem grow {growing : EnvironmentId → Prop} {later : Layout} {after : Heap}
    (sights : Sights layout heap scopes environment names) (grown : layout.Grows later)
    (extended : Heap.Extends growing heap after) (known : environment < heap.next) :
    Sights later after scopes environment names where
  absent := sights.absent
  present name distance found := by
    obtain ⟨owner, cell, reached, placed, seen⟩ := sights.present name distance found
    exact ⟨owner, cell, (extended.ancestor? known distance).trans reached,
      grown owner name cell placed, seen⟩

theorem enter (sights : Sights layout heap scopes environment names)
    (known : environment < heap.next) :
    Sights layout (heap.create (some environment)) ([] :: scopes) heap.next names where
  absent name none := by
    refine sights.absent name ?_
    simpa using none
  present name distance found := by
    rw [Scopes.distance?_enter, Option.map_eq_some_iff] at found
    obtain ⟨outward, found, rfl⟩ := found
    rw [Heap.ancestor?_succ (heap.enclosing?_create_self (some environment)) known]
    exact (sights.grow (.refl layout) (.create (fun _ => False) heap (some environment))
      known).present name outward found

/-- A fresh cell for a new local variable, which comes first from then on. -/
theorem declare (sights : Sights layout heap scopes environment names) (isLocal : scopes ≠ [])
    (known : environment < heap.next) (name : Text) (value : Loxley.Value) (cell : CellId)
    (fresh : layout environment name = none) :
    Sights (layout.place environment name cell) (heap.define environment name value)
      (scopes.declare name true) environment ((name, cell) :: names) := by
  have later := sights.grow (Layout.grows_place fresh cell)
    (.define heap environment name value) known
  constructor
  · intro sought none
    by_cases same : sought = name
    · subst sought
      rw [Scopes.distance?_declare_self isLocal] at none
      cases none
    · rw [Scopes.distance?_declare_of_ne same] at none
      simpa [List.lookup_cons, beq_eq_false_iff_ne.mpr same] using later.absent sought none
  · intro sought distance found
    by_cases same : sought = name
    · subst sought
      rw [Scopes.distance?_declare_self isLocal] at found
      cases found
      exact ⟨environment, cell, Heap.ancestor?_zero _ _, Layout.place_self .., by simp⟩
    · rw [Scopes.distance?_declare_of_ne same] at found
      simpa [List.lookup_cons, beq_eq_false_iff_ne.mpr same] using later.present sought distance found

end Sights

/-- Closures that were made at the same point of the program, over corresponding variables. -/
structure Captures (layout : Layout) (heap : Heap) (scopes : Scopes) (closure : Loxley.Closure)
    (lexical : Closure) : Prop where
  identity : closure.identity = lexical.identity
  name : closure.name = lexical.name
  parameters : closure.parameters = lexical.parameters
  analysed : closure.AnalysedAs heap scopes lexical.body
  distinct : Scopes.parameterFaults closure.parameters ([] :: scopes) = []
  spares : Stmt.assignsOwnAll true lexical.body = false
  sights : Sights layout heap scopes closure.scope lexical.names

/-- Values that are the same up to the representation of functions. -/
inductive Alike (layout : Layout) (heap : Heap) : Loxley.Value → Value → Prop
  | plain {value : Loxley.Value} (isPlain : ∀ closure, value ≠ .function closure)
      (ours : ∀ thing, value ≠ .foreign thing) : Alike layout heap value (.plain value)
  | function {scopes : Scopes} {closure : Loxley.Closure} {lexical : Closure}
      (captured : Captures layout heap scopes closure lexical) :
      Alike layout heap (.function closure) (.function lexical)

namespace Alike

variable {layout : Layout} {heap : Heap} {value : Loxley.Value} {content : Value}

theorem grow {growing : EnvironmentId → Prop} {later : Layout} {after : Heap}
    (alike : Alike layout heap value content) (grown : layout.Grows later)
    (extended : Heap.Extends growing heap after) : Alike later after value content := by
  cases alike with
  | plain isPlain ours => exact .plain isPlain ours
  | function captured =>
      exact .function
        { captured with
          analysed := captured.analysed.extend extended
          sights := captured.sights.grow grown extended captured.analysed.known }

/-- Operators do not tell the values apart. -/
theorem similar (alike : Alike layout heap value content) : value.Similar content.outline := by
  cases alike with
  | plain isPlain => exact .plain isPlain
  | function captured =>
      exact .function captured.identity.symm (congrArg (·.lexeme) captured.name.symm)
        (congrArg List.length captured.parameters.symm)

/-- No thing of the host is among the values. -/
theorem ours (alike : Alike layout heap value content) (thing : Foreign) :
    value ≠ .foreign thing := by
  cases alike with
  | plain _ ours => exact ours thing
  | function => simp

theorem ofLiteral (layout : Layout) (heap : Heap) (literal : Literal) :
    Alike layout heap (.ofLiteral literal) (.plain (.ofLiteral literal)) :=
  .plain (by cases literal <;> simp [Loxley.Value.ofLiteral])
    (by cases literal <;> simp [Loxley.Value.ofLiteral])

end Alike

theorem setVariable_entries {layout : Layout} {heap : Heap}
    {bindings : List (Text × Loxley.Value)} {entries : List (Text × Value)}
    (related : List.Forall₂ (Bound (Alike layout heap)) bindings entries) (name : Text)
    {value : Loxley.Value} {content : Value} (alike : Alike layout heap value content) :
    List.Forall₂ (Bound (Alike layout heap)) (Environment.setBinding name value bindings)
      (setVariable name content entries) := by
  induction related with
  | nil => exact .cons ⟨rfl, alike⟩ .nil
  | @cons binding entry bindings entries here rest ih =>
      obtain ⟨bound, old⟩ := binding
      obtain ⟨other, oldContent⟩ := entry
      obtain ⟨rfl, oldAlike⟩ := here
      simp only [Environment.setBinding, setVariable]
      split
      · exact .cons ⟨rfl, alike⟩ rest
      · exact .cons ⟨rfl, oldAlike⟩ ih

/-- A machine and a state that hold the same variables, no two of them in the same cell. -/
structure Related (layout : Layout) (machine : Machine) (state : State) : Prop where
  rooted : Machine.globals < machine.heap.next
  globals : List.Forall₂ (Bound (Alike layout machine.heap))
    (machine.heap.bindings Machine.globals) state.globals
  locals : ∀ environment name cell, layout environment name = some cell →
    environment ≠ Machine.globals ∧ ∃ value content,
      machine.heap.lookup? environment name = some value ∧ state.cells[cell]? = some content ∧
        Alike layout machine.heap value content
  apart : ∀ environment name other sought cell, layout environment name = some cell →
    layout other sought = some cell → environment = other ∧ name = sought
  depth : machine.depth = state.depth
  callLimit : machine.callLimit = state.callLimit
  closures : machine.closures = state.closures
  natives : machine.natives = #[{ Machine.clock state.readings with calls := state.clockCalls }]
  output : machine.output = state.output

namespace Related

variable {layout : Layout} {machine : Machine} {state : State} {name : Token}
  {value : Loxley.Value} {content : Value}

/-- A new environment holds nothing yet. -/
theorem enter (related : Related layout machine state) (outer : EnvironmentId) :
    Related layout (machine.enter outer) state := by
  have extended := Heap.Extends.create (fun _ => False) machine.heap (some outer)
  have grown := Layout.Grows.refl layout
  refine { related with
    rooted := Nat.lt_of_lt_of_le related.rooted extended.next
    globals := ?_
    locals := ?_ }
  · simp only [Machine.enter, Heap.bindings_create]
    exact related.globals.imp fun _ _ here => ⟨here.1, here.2.grow grown extended⟩
  · intro environment sought cell placed
    obtain ⟨inner, value, content, held, kept, alike⟩ := related.locals _ _ _ placed
    refine ⟨inner, value, content, ?_, kept, alike.grow grown extended⟩
    simpa [Machine.enter] using held

theorem atDepth (related : Related layout machine state) {depth other : Nat}
    (same : depth = other) :
    Related layout { machine with depth } { state with depth := other } :=
  { related with depth := same }

theorem leaveTo (related : Related layout machine state) (environment : EnvironmentId) :
    Related layout (Machine.leaveTo environment machine) state :=
  { related with }

theorem writeLine (related : Related layout machine state) (text : Text) :
    Related layout (machine.writeLine text) (state.writeLine text) :=
  { related with output := congrArg (·.push (text ++ [Text.newline])) related.output }

/-- The clock is the only host function, and it counts its calls on both sides. -/
theorem countCall (related : Related layout machine state) (arguments : List Loxley.Value) :
    Related layout (machine.countCall 0 arguments) { state with clockCalls := state.clockCalls + 1 } :=
  { related with natives := by simp [Machine.countCall, related.natives] }

theorem resolve (related : Related layout machine state) (program : List ResolvedStmt) :
    Related layout (machine.resolve program) state :=
  { related with }

theorem setGlobal (related : Related layout machine state) (sought : Text)
    (alike : Alike layout (machine.heap.define Machine.globals sought value) value content) :
    Related layout { machine with heap := machine.heap.define Machine.globals sought value }
      { state with globals := setVariable sought content state.globals } := by
  have extended := Heap.Extends.define machine.heap Machine.globals sought value
  have grown := Layout.Grows.refl layout
  refine { related with rooted := by simpa using related.rooted, globals := ?_, locals := ?_ }
  · rw [Heap.bindings_define _ related.rooted, if_pos rfl]
    exact setVariable_entries
      (related.globals.imp fun _ _ here => ⟨here.1, here.2.grow grown extended⟩) sought alike
  · intro environment name cell placed
    obtain ⟨inner, old, oldContent, held, kept, oldAlike⟩ := related.locals _ _ _ placed
    refine ⟨inner, old, oldContent, ?_, kept, oldAlike.grow grown extended⟩
    rw [Heap.lookup?_define, if_neg fun here => inner here.1]
    exact held

theorem setLocal (related : Related layout machine state) {owner : EnvironmentId} {sought : Text}
    {cell : CellId} (placed : layout owner sought = some cell)
    (alike : Alike layout machine.heap value content) :
    Related layout { machine with heap := machine.heap.define owner sought value }
      { state with cells := state.cells.setIfInBounds cell content } := by
  obtain ⟨inner, old, oldContent, held, kept, _⟩ := related.locals _ _ _ placed
  have bound : machine.heap.binds owner sought = true := by simp [Heap.binds, held]
  have known := Heap.lt_next_of_binds bound
  have extended : Heap.Extends (fun _ => False) machine.heap
      (machine.heap.define owner sought value) := .define_of_binds bound value
  have grown := Layout.Grows.refl layout
  refine { related with rooted := by simpa using related.rooted, globals := ?_, locals := ?_ }
  · rw [Heap.bindings_define _ known, if_neg (Ne.symm inner)]
    exact related.globals.imp fun _ _ here => ⟨here.1, here.2.grow grown extended⟩
  · intro environment name other otherPlaced
    obtain ⟨otherInner, otherValue, otherContent, otherHeld, otherKept, otherAlike⟩ :=
      related.locals _ _ _ otherPlaced
    refine ⟨otherInner, ?_⟩
    by_cases same : other = cell
    · subst other
      obtain ⟨rfl, rfl⟩ := related.apart _ _ _ _ _ otherPlaced placed
      have inBounds : cell < state.cells.size := (Array.getElem?_eq_some_iff.mp kept).1
      refine ⟨value, content, ?_, ?_, alike.grow grown extended⟩
      · rw [Heap.lookup?_define, if_pos ⟨rfl, rfl, known⟩]
      · simp [inBounds]
    · refine ⟨otherValue, otherContent, ?_, ?_, otherAlike.grow grown extended⟩
      · rw [Heap.lookup?_define, if_neg]
        · exact otherHeld
        · rintro ⟨rfl, rfl, _⟩
          exact same (Option.some.inj (otherPlaced.symm.trans placed))
      · rw [Array.getElem?_setIfInBounds, if_neg (Ne.symm same)]
        exact otherKept

theorem placed_of_binds_eq_false (related : Related layout machine state)
    {environment : EnvironmentId} {sought : Text}
    (unbound : machine.heap.binds environment sought = false) : layout environment sought = none := by
  cases placed : layout environment sought with
  | none => rfl
  | some cell =>
      obtain ⟨_, value, content, held, _⟩ := related.locals _ _ _ placed
      simp [Heap.binds, held] at unbound

theorem declareLocal (related : Related layout machine state) {environment : EnvironmentId}
    {sought : Text} (inner : environment ≠ Machine.globals)
    (known : environment < machine.heap.next)
    (unbound : machine.heap.binds environment sought = false)
    (alike : Alike (layout.place environment sought state.cells.size)
      (machine.heap.define environment sought value) value content) :
    Related (layout.place environment sought state.cells.size)
      { machine with heap := machine.heap.define environment sought value }
      { state with cells := state.cells.push content } := by
  have grown := Layout.grows_place (related.placed_of_binds_eq_false unbound) state.cells.size
  have extended := Heap.Extends.define machine.heap environment sought value
  have older : ∀ other name cell, layout other name = some cell → cell < state.cells.size := by
    intro other name cell placed
    obtain ⟨_, _, _, _, kept, _⟩ := related.locals _ _ _ placed
    exact (Array.getElem?_eq_some_iff.mp kept).1
  refine { related with
    rooted := by simpa using related.rooted, globals := ?_, locals := ?_, apart := ?_ }
  · rw [Heap.bindings_define _ known, if_neg (Ne.symm inner)]
    exact related.globals.imp fun _ _ here => ⟨here.1, here.2.grow grown extended⟩
  · intro other name cell placed
    by_cases here : other = environment ∧ name = sought
    · obtain ⟨rfl, rfl⟩ := here
      cases (Layout.place_self ..).symm.trans placed
      refine ⟨inner, value, content, ?_, by simp, alike⟩
      rw [Heap.lookup?_define, if_pos ⟨rfl, rfl, known⟩]
    · rw [Layout.place, if_neg here] at placed
      obtain ⟨otherInner, old, oldContent, held, kept, oldAlike⟩ := related.locals _ _ _ placed
      refine ⟨otherInner, old, oldContent, ?_, ?_, oldAlike.grow grown extended⟩
      · rw [Heap.lookup?_define, if_neg fun same => here ⟨same.1, same.2.1⟩]
        exact held
      · rw [Array.getElem?_push_lt (older _ _ _ placed)]
        rwa [Array.getElem?_eq_getElem (older _ _ _ placed)] at kept
  · intro left name right sought' cell leftPlaced rightPlaced
    -- Only the new variable has the new cell: all others lie below it.
    unfold Layout.place at leftPlaced rightPlaced
    split at leftPlaced
    · next leftHere =>
        cases leftPlaced
        split at rightPlaced
        · next rightHere =>
            exact ⟨leftHere.1.trans rightHere.1.symm, leftHere.2.trans rightHere.2.symm⟩
        · exact absurd (older _ _ _ rightPlaced) (Nat.lt_irrefl _)
    · split at rightPlaced
      · cases rightPlaced
        exact absurd (older _ _ _ leftPlaced) (Nat.lt_irrefl _)
      · exact related.apart _ _ _ _ _ leftPlaced rightPlaced

end Related

end Lexical

end Loxley
