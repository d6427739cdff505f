import Loxley.Proofs.Lexical.Relation
import Loxley.Proofs.Safety

/-!
# Agreement

Code that stands at the same point of the program on a machine and in the lexical semantics, and what
it means that both run it to the same end. Reading, assigning and declaring variables agree.
-/

set_option autoImplicit false

namespace Loxley

namespace Lexical

/-- Code that runs in both semantics at the same point of the program. -/
structure Stands (layout : Layout) (machine : Machine) (state : State) (scopes : Scopes)
    (place : Place) : Prop where
  ready : machine.Ready .valuesOnly scopes
  related : Related layout machine state
  sights : Sights layout machine.heap scopes machine.current place.names
  isTop : scopes = [] ↔ place = .top

theorem Stands.follow {layout later : Layout} {machine after : Machine} {state next : State}
    {scopes : Scopes} {place : Place} (stands : Stands layout machine state scopes place)
    (ready : after.Ready .valuesOnly scopes) (follows : Machine.Follows (fun _ => False) machine after)
    (grown : layout.Grows later) (related : Related later after next) :
    Stands later after next scopes place where
  ready := ready
  related := related
  sights := follows.current ▸ stands.sights.grow grown follows.heap stands.ready.hosted.known
  isTop := stands.isTop

theorem Stands.after_evaluate {layout later : Layout} {machine after : Machine}
    {state next : State} {scopes : Scopes} {place : Place} {fuel : Nat} {value : Loxley.Value}
    {expr : Expr Unit} (stands : Stands layout machine state scopes place)
    {initializing : Option Text} (fresh : scopes.Initializes initializing)
    (accepted : expr.Accepted (scopes.during initializing))
    (ran : Machine.evaluate fuel (expr.resolve (scopes.during initializing)) machine =
      .ok value after) (grown : layout.Grows later) (related : Related later after next) :
    Stands later after next scopes place ∧ after.Knows .valuesOnly value := by
  have met := stands.ready.evaluate fresh accepted fuel
  rw [ran] at met
  obtain ⟨⟨afterSound, known⟩, follows⟩ := met
  exact ⟨stands.follow (stands.ready.follow afterSound follows) follows grown related, known⟩

section Agreement

variable {α β γ δ : Type}

/-- Both computations end in the same way, in corresponding states. -/
inductive Agrees (layout : Layout) (holds : Layout → α → β → Machine → State → Prop) :
    Loxley.Result α → Result β → Prop
  | ok {later : Layout} {value : α} {content : β} {machine : Machine} {state : State}
      (grown : layout.Grows later) (related : Related later machine state)
      (held : holds later value content machine state) :
      Agrees layout holds (.ok value machine) (.ok content state)
  | error {later : Layout} {problem : RuntimeError} {machine : Machine} {state : State}
      (grown : layout.Grows later) (related : Related later machine state) :
      Agrees layout holds (.error problem machine) (.error problem state)
  | exhausted : Agrees layout holds .exhausted .exhausted

/-- Both computations give the same value. -/
def valued (layout : Layout) (value : Loxley.Value) (content : Value) (machine : Machine)
    (_ : State) : Prop :=
  Alike layout machine.heap value content

/-- Both computations give the same values. -/
def valuedAll (layout : Layout) (values : List Loxley.Value) (contents : List Value)
    (machine : Machine) (_ : State) : Prop :=
  List.Forall₂ (Alike layout machine.heap) values contents

variable {layout : Layout} {holds : Layout → α → β → Machine → State → Prop}
  {wanted : Layout → γ → δ → Machine → State → Prop} {result : Loxley.Result α} {other : Result β}

theorem Agrees.since {earlier : Layout} (agreed : Agrees layout holds result other)
    (grown : earlier.Grows layout) : Agrees earlier holds result other := by
  cases agreed with
  | ok later related held => exact .ok (grown.trans later) related held
  | error later related => exact .error (grown.trans later) related
  | exhausted => exact .exhausted

theorem Agrees.andThen {next : α → Machine → Loxley.Result γ} {follow : β → State → Result δ}
    (first : Agrees layout holds result other)
    (second : ∀ later value content machine state, result = .ok value machine →
      layout.Grows later → Related later machine state → holds later value content machine state →
      Agrees later wanted (next value machine) (follow content state)) :
    Agrees layout wanted (result.andThen next) (other.andThen follow) := by
  cases first with
  | ok grown related held => exact (second _ _ _ _ _ rfl grown related held).since grown
  | error grown related => exact .error grown related
  | exhausted => exact .exhausted

end Agreement

section Access

variable {layout : Layout} {machine : Machine} {state : State} {scopes : Scopes} {place : Place}

theorem Related.finish (related : Related layout machine state) (token : Token)
    {value : Except Mishap Loxley.Value}
    (literal : ∀ given, value = .ok given → ∃ literal, given = .ofLiteral literal) :
    Agrees layout valued (machine.finish token value) (state.finish token value) := by
  cases value with
  | ok given =>
      obtain ⟨same, rfl⟩ := literal given rfl
      exact .ok (.refl layout) related (.ofLiteral _ _ same)
  | error mishap => exact .error (.refl layout) related

theorem Related.operate (related : Related layout machine state) (op : BinaryOp) (token : Token)
    {leftLayout rightLayout : Layout} {leftHeap rightHeap : Heap} {left right : Loxley.Value}
    {leftContent rightContent : Value} (leftAlike : Alike leftLayout leftHeap left leftContent)
    (rightAlike : Alike rightLayout rightHeap right rightContent) :
    Agrees layout valued (machine.operate op token left right)
      (state.finish token (op.apply leftContent.outline rightContent.outline)) := by
  have comparable : op.clash? left right = none := by
    cases left with
    | foreign thing => exact absurd rfl (leftAlike.ours thing)
    | nil | bool | number | string | function | native => cases op <;> rfl
  rw [leftAlike.similar.applyBinary rightAlike.similar]
  simp only [Machine.operate, comparable]
  exact related.finish token fun _ => BinaryOp.apply_eq_ok

/-- All values have a text. -/
theorem Alike.text? {heap : Heap} {value : Loxley.Value} {content : Value}
    (alike : Alike layout heap value content) :
    value.text? = some (content.outline.text?.getD []) := by
  rw [alike.similar.text?]
  cases value with
  | foreign thing => exact absurd rfl (alike.ours thing)
  | nil | bool | number | string | function | native => rfl

theorem Stands.read (stands : Stands layout machine state scopes place) (name : Token) :
    Agrees layout valued (machine.read name (scopes.distance? name.lexeme))
      (state.read place.names name) := by
  cases found : scopes.distance? name.lexeme with
  | none =>
      have looked := Bound.lookup stands.related.globals name.lexeme
      rw [← Heap.lookup?_eq_lookup_bindings] at looked
      simp only [Machine.read, State.read, stands.sights.absent _ found, Heap.get?,
        Machine.globals, Heap.chain_zero, List.findSome?_singleton] at looked ⊢
      generalize machine.heap.lookup? 0 name.lexeme = bound at looked
      generalize state.globals.lookup name.lexeme = entry at looked
      cases looked with
      | none => exact .error (.refl layout) stands.related
      | some alike => exact .ok (.refl layout) stands.related alike
  | some distance =>
      obtain ⟨owner, cell, reached, placed, seen⟩ := stands.sights.present _ _ found
      obtain ⟨_, value, content, held, kept, alike⟩ := stands.related.locals _ _ _ placed
      simp only [Machine.read, Heap.getAt, reached, held, State.read, seen]
      simp only [Array.getD_eq_getD_getElem?, kept, Option.getD_some]
      exact .ok (.refl layout) stands.related alike

theorem Stands.assign (stands : Stands layout machine state scopes place) (name : Token)
    {value : Loxley.Value} {content : Value} (alike : Alike layout machine.heap value content) :
    Agrees layout valued (machine.assign name value (scopes.distance? name.lexeme))
      (state.assign place.names name content) := by
  cases found : scopes.distance? name.lexeme with
  | none =>
      have looked := Bound.lookup stands.related.globals name.lexeme
      rw [← Heap.lookup?_eq_lookup_bindings] at looked
      simp only [Machine.assign, State.assign, stands.sights.absent _ found, Heap.owner?,
        Machine.globals, Heap.chain_zero, List.find?_singleton, Heap.binds] at looked ⊢
      generalize machine.heap.lookup? 0 name.lexeme = bound at looked
      generalize state.globals.lookup name.lexeme = entry at looked
      cases looked with
      | none => exact .error (.refl layout) stands.related
      | some _ =>
          have later := alike.grow (.refl layout)
            (.define machine.heap Machine.globals name.lexeme value)
          exact .ok (.refl layout) (stands.related.setGlobal name.lexeme later) later
  | some distance =>
      obtain ⟨owner, cell, reached, placed, seen⟩ := stands.sights.present _ _ found
      obtain ⟨_, old, _, held, _⟩ := stands.related.locals _ _ _ placed
      have bound : machine.heap.binds owner name.lexeme = true := by simp [Heap.binds, held]
      simp only [Machine.assign, Heap.ownerAt, reached, bound, if_true, State.assign, seen]
      exact .ok (.refl layout) (stands.related.setLocal placed alike)
        (alike.grow (.refl layout) (.define machine.heap owner name.lexeme value))

end Access

section Declarations

variable {layout : Layout} {machine : Machine} {state : State} {scopes : Scopes} {place : Place}
  {name : Token}

/-- The layout after a declaration. -/
def Layout.declare (layout : Layout) (machine : Machine) (state : State) (name : Token) :
    Place → Layout
  | .top => layout
  | .inner _ => layout.place machine.current name.lexeme state.cells.size

theorem Stands.enter (stands : Stands layout machine state scopes place) :
    Stands layout (machine.enter machine.current) state ([] :: scopes) (.inner place.names) where
  ready := .enter stands.ready.sound stands.ready.hosted.covers stands.ready.hosted.known
  related := stands.related.enter machine.current
  sights := stands.sights.enter stands.ready.hosted.known
  isTop := by simp

theorem Stands.unbound (stands : Stands layout machine state scopes place) (isLocal : scopes ≠ [])
    (fresh : scopes.duplicate name = []) :
    machine.heap.binds machine.current name.lexeme = false := by
  cases scopes with
  | nil => exact absurd rfl isLocal
  | cons innermost outer =>
      rw [Bool.eq_false_iff]
      intro bound
      have declared := stands.ready.hosted.exact innermost outer rfl name.lexeme bound
      simp [Scopes.duplicate, declared] at fresh

theorem Stands.isLocal {names : Names}
    (stands : Stands layout machine state scopes (.inner names)) : scopes ≠ [] :=
  fun none => Place.noConfusion (stands.isTop.mp none)

theorem Stands.grows_declare (stands : Stands layout machine state scopes place)
    (fresh : scopes.duplicate name = []) :
    layout.Grows (layout.declare machine state name place) := by
  cases place with
  | top => exact .refl layout
  | inner names =>
      exact Layout.grows_place
        (stands.related.placed_of_binds_eq_false (stands.unbound stands.isLocal fresh)) _

theorem Stands.sights_declare (stands : Stands layout machine state scopes place)
    (fresh : scopes.duplicate name = []) (value : Loxley.Value) :
    Sights (layout.declare machine state name place)
      (machine.heap.define machine.current name.lexeme value) (scopes.declare name.lexeme true)
      machine.current (state.after name place).names := by
  cases place with
  | top =>
      have none := stands.isTop.mpr rfl
      subst none
      exact .top layout _ _
  | inner names =>
      exact stands.sights.declare stands.isLocal stands.ready.hosted.known name.lexeme value _
        (stands.related.placed_of_binds_eq_false (stands.unbound stands.isLocal fresh))

theorem Stands.related_declare (stands : Stands layout machine state scopes place)
    (fresh : scopes.duplicate name = []) {value : Loxley.Value} {content : Value}
    (alike : Alike (layout.declare machine state name place)
      (machine.heap.define machine.current name.lexeme value) value content) :
    Related (layout.declare machine state name place) (machine.declare name value)
      (state.declare place name content) := by
  cases place with
  | top =>
      have isTop : machine.current = Machine.globals :=
        stands.ready.hosted.isTop.mp (stands.isTop.mpr rfl)
      have here : machine.heap.define machine.current name.lexeme value =
          machine.heap.define Machine.globals name.lexeme value := by rw [isTop]
      simp only [Machine.declare, here] at alike ⊢
      exact stands.related.setGlobal name.lexeme alike
  | inner names =>
      have inner : machine.current ≠ Machine.globals := fun isTop =>
        stands.isLocal (stands.ready.hosted.isTop.mpr isTop)
      exact stands.related.declareLocal inner stands.ready.hosted.known
        (stands.unbound stands.isLocal fresh) alike

theorem Stands.isTop_declare (stands : Stands layout machine state scopes place) (name : Token) :
    scopes.declare name.lexeme true = [] ↔ state.after name place = .top := by
  have isTop := stands.isTop
  cases scopes <;> cases place <;> simp_all [Scopes.declare, State.after]

theorem Stands.declare (stands : Stands layout machine state scopes place)
    (fresh : scopes.duplicate name = []) {value : Loxley.Value} {content : Value}
    (known : machine.Knows .valuesOnly value) (alike : Alike layout machine.heap value content) :
    Stands (layout.declare machine state name place) (machine.declare name value)
      (state.declare place name content) (scopes.declare name.lexeme true)
      (state.after name place) where
  ready := stands.ready.declare name known
  related := stands.related_declare fresh
    (alike.grow (stands.grows_declare fresh) (.define machine.heap _ name.lexeme value))
  sights := stands.sights_declare fresh value
  isTop := stands.isTop_declare name

theorem Stands.declareFunction (stands : Stands layout machine state scopes place)
    (fresh : scopes.duplicate name = []) {parameters : List Token} {body : List (Stmt Unit)}
    (distinct : Scopes.parameterFaults parameters ([] :: scopes.declare name.lexeme true) = [])
    (accepted : Stmt.AcceptedAll true
      ((scopes.declare name.lexeme true).enterFunction parameters) body)
    (spares : Stmt.assignsOwnAll true body = false) :
    Stands (layout.declare machine state name place)
      (machine.declareFunction name parameters (Stmt.resolveAll
        ((scopes.declare name.lexeme true).enterFunction parameters) body))
      (state.declareFunction place name parameters body) (scopes.declare name.lexeme true)
      (state.after name place) := by
  have ready := stands.ready.declareFunction accepted
  have captured : Captures (layout.declare machine state name place) _
      (scopes.declare name.lexeme true)
      { identity := machine.closures, name, parameters,
        body := Stmt.resolveAll ((scopes.declare name.lexeme true).enterFunction parameters) body,
        scope := machine.current }
      { identity := state.closures, name, parameters, body,
        names := (state.after name place).names } :=
    { identity := stands.related.closures
      name := rfl
      parameters := rfl
      analysed := ⟨ready.hosted.known, ready.hosted.covers, rfl, accepted⟩
      distinct
      spares
      sights := stands.sights_declare fresh _ }
  have related := stands.related_declare fresh (.function captured)
  exact
    { ready
      related := { related with closures := congrArg (· + 1) stands.related.closures }
      sights := captured.sights
      isTop := stands.isTop_declare name }

/-- Parameters take cells one after the other. -/
theorem Stands.bindParameters {parameters : List Token} {arguments : List Loxley.Value}
    {contents : List Value} (stands : Stands layout machine state scopes place)
    (distinct : Scopes.parameterFaults parameters scopes = [])
    (known : ∀ argument ∈ arguments, machine.Knows .valuesOnly argument)
    (alike : List.Forall₂ (Alike layout machine.heap) arguments contents)
    (enough : parameters.length ≤ arguments.length) :
    ∃ later, layout.Grows later ∧
      Stands later (Machine.bindParameters parameters arguments machine)
        (State.bindParameters parameters contents place state).2
        (parameters.foldl (fun inner parameter => inner.declare parameter.lexeme true) scopes)
        (State.bindParameters parameters contents place state).1 := by
  induction parameters generalizing layout arguments contents machine state scopes place with
  | nil => exact ⟨layout, .refl layout, stands⟩
  | cons parameter parameters ih =>
      cases alike with
      | nil => simp at enough
      | @cons argument content arguments contents first rest =>
          obtain ⟨fresh, others⟩ := List.append_eq_nil_iff.mp distinct
          have declared := stands.declare fresh (known argument (.head _)) first
          have grown : layout.Grows (layout.declare machine state parameter place) :=
            stands.grows_declare fresh
          have extended := Heap.Extends.define machine.heap machine.current parameter.lexeme argument
          obtain ⟨later, grownLater, bound⟩ := ih declared others
            (fun value member => (known value (.tail _ member)).extend extended)
            (rest.imp fun _ _ alike => alike.grow grown extended)
            (Nat.le_of_succ_le_succ enough)
          exact ⟨later, grown.trans grownLater, bound⟩

end Declarations

end Lexical

end Loxley
