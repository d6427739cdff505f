import Loxley.Proofs.Heap
import Loxley.Scope

/-!
# Scopes and environments

Scope analysis walks the program with a stack of scopes; the machine runs it with a chain of
environments. An environment covers a stack of scopes if every name is bound exactly as many
environments outwards as the analysis says.
-/

set_option autoImplicit false

namespace Loxley

namespace Scope

@[simp] theorem declares_nil (name : Text) : Scope.declares [] name = false := rfl

theorem declares_cons_iff (scope : Scope) (declared name : Text) (ready : Bool) :
    Scope.declares ((declared, ready) :: scope) name = true ↔
      name = declared ∨ scope.declares name = true := by
  by_cases same : name = declared
  · simp [declares, same]
  · simp [declares, List.lookup_cons, same, beq_eq_false_iff_ne.mpr same]

end Scope

namespace Scopes

@[simp] theorem distance?_nil (name : Text) : Scopes.distance? [] name = none := rfl

theorem distance?_cons (scope : Scope) (scopes : Scopes) (name : Text) :
    Scopes.distance? (scope :: scopes) name =
      if scope.declares name then some 0 else (scopes.distance? name).map (· + 1) := by
  simp [distance?, List.findIdx?_cons]

/-- Inside one more scope, which declares nothing yet, every name is one step further away. -/
@[simp] theorem distance?_enter (scopes : Scopes) (name : Text) :
    Scopes.distance? ([] :: scopes) name = (scopes.distance? name).map (· + 1) := by
  simp [distance?_cons]

@[simp] theorem declare_nil (name : Text) (ready : Bool) : Scopes.declare name ready [] = [] := rfl

theorem distance?_declare_self {scopes : Scopes} (isLocal : scopes ≠ []) (name : Text)
    (ready : Bool) : (scopes.declare name ready).distance? name = some 0 := by
  cases scopes with
  | nil => exact absurd rfl isLocal
  | cons innermost outer =>
      have declared := (innermost.declares_cons_iff name name ready).mpr (.inl rfl)
      simp [declare, distance?_cons, declared]

theorem distance?_declare_of_ne {name other : Text} (different : other ≠ name) (scopes : Scopes)
    (ready : Bool) : (scopes.declare name ready).distance? other = scopes.distance? other := by
  cases scopes with
  | nil => rfl
  | cons innermost outer =>
      have same : Scope.declares ((name, ready) :: innermost) other = innermost.declares other := by
        rw [Bool.eq_iff_iff, innermost.declares_cons_iff name other ready]
        simp [different]
      simp only [declare, distance?_cons, same]

@[simp] theorem isEmpty_declare (scopes : Scopes) (name : Text) (ready : Bool) :
    (scopes.declare name ready).isEmpty = scopes.isEmpty := by
  cases scopes <;> rfl

@[simp] theorem isEmpty_enterFunction (scopes : Scopes) (parameters : List Token) :
    (scopes.enterFunction parameters).isEmpty = false := by
  have kept : ∀ inner : Scopes, (parameters.foldl
      (fun inner parameter => inner.declare parameter.lexeme true) inner).isEmpty =
        inner.isEmpty := by
    induction parameters with
    | nil => exact fun _ => rfl
    | cons parameter others ih =>
        intro inner
        rw [List.foldl_cons, ih, isEmpty_declare]
  exact kept _

/-- The scopes seen by an initializer: the variable that it is for is declared but not ready. -/
def during (initializing : Option Text) (scopes : Scopes) : Scopes :=
  match initializing with
  | none => scopes
  | some name => scopes.declare name false

@[simp] theorem during_none (scopes : Scopes) : scopes.during none = scopes := rfl

@[simp] theorem during_some (scopes : Scopes) (name : Text) :
    scopes.during (some name) = scopes.declare name false := rfl

theorem distance?_during_of_ne {initializing : Option Text} {name : Text}
    (other : initializing ≠ some name) (scopes : Scopes) :
    (scopes.during initializing).distance? name = scopes.distance? name := by
  cases initializing with
  | none => rfl
  | some pending =>
      rw [during_some, distance?_declare_of_ne fun same => other (congrArg some same.symm)]

/-- The variable of a declaration, while its initializer is evaluated, if it is a local one. -/
def initialized (scopes : Scopes) (name : Text) : Option Text :=
  if scopes.isEmpty then none else some name

theorem during_initialized (scopes : Scopes) (name : Text) :
    scopes.during (scopes.initialized name) = scopes.declare name false := by
  cases scopes <;> rfl

/-- A variable that is being initialized is a local one, and new in its scope. -/
def Initializes (scopes : Scopes) (initializing : Option Text) : Prop :=
  ∀ name, initializing = some name →
    ∃ innermost outer, scopes = innermost :: outer ∧ innermost.declares name = false

theorem initializes_none (scopes : Scopes) : scopes.Initializes none :=
  by rintro _ ⟨⟩

theorem initializes_initialized {scopes : Scopes} {name : Token}
    (fresh : scopes.duplicate name = []) :
    scopes.Initializes (scopes.initialized name.lexeme) := by
  cases scopes with
  | nil => exact initializes_none []
  | cons innermost outer =>
      intro pending same
      cases same
      refine ⟨innermost, outer, rfl, ?_⟩
      by_cases declared : innermost.declares name.lexeme = true
      · simp [duplicate, declared] at fresh
      · exact Bool.eq_false_iff.mpr declared

/-- A name that may be read is not the one that is being initialized. -/
theorem ne_of_pendingRead_eq_nil {scopes : Scopes} (isLocal : scopes ≠ []) {pending : Text}
    {name : Token} (readable : (scopes.declare pending false).pendingRead name = []) :
    name.lexeme ≠ pending := by
  cases scopes with
  | nil => exact absurd rfl isLocal
  | cons innermost outer =>
      intro same
      simp [declare, pendingRead, Scope.isPending, same] at readable

/-- Such a name has the distance that it has around the initializer. -/
theorem distance?_during_of_pendingRead_eq_nil {scopes : Scopes} {initializing : Option Text}
    {name : Token} (readable : (scopes.during initializing).pendingRead name = []) :
    (scopes.during initializing).distance? name.lexeme = scopes.distance? name.lexeme := by
  cases initializing with
  | none => rfl
  | some pending =>
      cases scopes with
      | nil => rfl
      | cons innermost outer =>
          have different := ne_of_pendingRead_eq_nil (List.cons_ne_nil innermost outer) readable
          rw [during_some, distance?_declare_of_ne different]

end Scopes

namespace Heap

variable {heap : Heap} {scopes : Scopes} {environment : EnvironmentId}

/-- Every name of the scopes is bound at its distance from an environment. -/
def Covers (heap : Heap) (scopes : Scopes) (environment : EnvironmentId) : Prop :=
  ∀ name distance, scopes.distance? name = some distance →
    ∃ owner, heap.ancestor? environment distance = some owner ∧ heap.binds owner name = true

theorem covers_nil (heap : Heap) (environment : EnvironmentId) : heap.Covers [] environment := by
  intro name distance found
  simp at found

theorem Covers.extend {growing : EnvironmentId → Prop} {after : Heap}
    (covered : heap.Covers scopes environment) (extended : Extends growing heap after)
    (known : environment < heap.next) : after.Covers scopes environment := by
  intro name distance found
  obtain ⟨owner, reached, bound⟩ := covered name distance found
  exact ⟨owner, (extended.ancestor? known distance).trans reached, extended.kept owner name bound⟩

/-- A new environment inside one that covers some scopes covers them with one more scope. -/
theorem Covers.enter (covered : heap.Covers scopes environment) (known : environment < heap.next) :
    (heap.create (some environment)).Covers ([] :: scopes) heap.next := by
  intro name distance found
  rw [Scopes.distance?_enter, Option.map_eq_some_iff] at found
  obtain ⟨outward, found, rfl⟩ := found
  have inside := heap.enclosing?_create_self (some environment)
  rw [ancestor?_succ inside known]
  exact covered.extend (Extends.create (fun _ => False) heap (some environment)) known name outward
    found

theorem Covers.declare (covered : heap.Covers scopes environment)
    (known : environment < heap.next) (name : Text) (value : Value) :
    (heap.define environment name value).Covers (scopes.declare name true) environment := by
  have extended := Extends.define heap environment name value
  intro sought distance found
  by_cases same : sought = name
  · subst sought
    cases scopes with
    | nil => simp at found
    | cons innermost outer =>
        rw [Scopes.distance?_declare_self (by simp)] at found
        cases found
        exact ⟨environment, ancestor?_zero _ _, (binds_define_iff ..).mpr (.inr ⟨rfl, rfl, known⟩)⟩
  · rw [Scopes.distance?_declare_of_ne same] at found
    exact covered.extend extended known sought distance found

/-- A name that an initializer does not bind itself keeps the distance that it has around it. -/
theorem Covers.of_ne_initializing {initializing : Option Text} {name : Text} {distance : Nat}
    (covered : heap.Covers scopes environment) (other : initializing ≠ some name)
    (found : (scopes.during initializing).distance? name = some distance) :
    ∃ owner, heap.ancestor? environment distance = some owner ∧ heap.binds owner name = true := by
  rw [Scopes.distance?_during_of_ne other] at found
  exact covered name distance found

/-- Every local name that may be read is bound at its distance. -/
theorem Covers.of_pendingRead_eq_nil {initializing : Option Text} {name : Token} {distance : Nat}
    (covered : heap.Covers scopes environment)
    (readable : (scopes.during initializing).pendingRead name = [])
    (found : (scopes.during initializing).distance? name.lexeme = some distance) :
    ∃ owner, heap.ancestor? environment distance = some owner ∧
      heap.binds owner name.lexeme = true := by
  rw [Scopes.distance?_during_of_pendingRead_eq_nil readable] at found
  exact covered name.lexeme distance found

/--
An environment in which code runs that is analysed under some scopes. Besides covering them, the
environment itself holds no variable beyond those that its scope has declared so far.
-/
structure Hosts (heap : Heap) (scopes : Scopes) (environment : EnvironmentId) : Prop where
  covers : heap.Covers scopes environment
  known : environment < heap.next
  isTop : scopes = [] ↔ environment = 0
  exact : ∀ innermost outer, scopes = innermost :: outer → ∀ name,
    heap.binds environment name = true → innermost.declares name = true

namespace Hosts

/-- Growth elsewhere does not matter to an environment. -/
theorem extend {growing : EnvironmentId → Prop} {after : Heap}
    (hosted : heap.Hosts scopes environment) (extended : Extends growing heap after)
    (fixed : ¬ growing environment) : after.Hosts scopes environment where
  covers := hosted.covers.extend extended hosted.known
  known := Nat.lt_of_lt_of_le hosted.known extended.next
  isTop := hosted.isTop
  exact innermost outer shape name bound :=
    hosted.exact innermost outer shape name
      (extended.closed environment hosted.known fixed name bound)

theorem enter (covered : heap.Covers scopes environment) (known : environment < heap.next) :
    (heap.create (some environment)).Hosts ([] :: scopes) heap.next where
  covers := covered.enter known
  known := by simp
  isTop := by
    constructor
    · intro impossible
      cases impossible
    · intro zero
      exact absurd (zero ▸ known) (Nat.not_lt_zero _)
  exact innermost outer shape name bound := by
    have unknown := lt_next_of_binds ((binds_create ..).symm.trans bound)
    exact absurd unknown (Nat.lt_irrefl _)

theorem declare (hosted : heap.Hosts scopes environment) (name : Text) (value : Value) :
    (heap.define environment name value).Hosts (scopes.declare name true) environment where
  covers := hosted.covers.declare hosted.known name value
  known := by simpa using hosted.known
  isTop := by
    rw [← hosted.isTop]
    cases scopes <;> simp [Scopes.declare]
  exact innermost outer shape sought bound := by
    cases scopes with
    | nil => cases shape
    | cons inside around =>
        obtain ⟨rfl, rfl⟩ := List.cons.inj shape
        rw [inside.declares_cons_iff]
        rcases (binds_define_iff ..).mp bound with before | ⟨_, same, _⟩
        · exact .inr (hosted.exact inside around rfl sought before)
        · exact .inl same

/--
The environment at the distance of a name exists. Even the variable that is being initialized has
its environment, only not yet its binding.
-/
theorem ancestor?_during (hosted : heap.Hosts scopes environment) {initializing : Option Text}
    {name : Text} {distance : Nat}
    (found : (scopes.during initializing).distance? name = some distance) :
    ∃ owner, heap.ancestor? environment distance = some owner := by
  by_cases own : initializing = some name
  · subst own
    cases scopes with
    | nil => simp at found
    | cons innermost outer =>
        rw [Scopes.during_some,
          Scopes.distance?_declare_self (List.cons_ne_nil innermost outer)] at found
        cases found
        exact ⟨environment, ancestor?_zero _ _⟩
  · obtain ⟨owner, reached, _⟩ := hosted.covers.of_ne_initializing own found
    exact ⟨owner, reached⟩

theorem globals (known : 0 < heap.next) : heap.Hosts [] 0 where
  covers := heap.covers_nil 0
  known := known
  isTop := by simp
  exact _ _ shape := by cases shape

end Hosts

end Heap

end Loxley
