import Loxley.Proofs.Heap

/-!
# Finding variables by walking and by distance

Heaps are built by creating environments, defining variables and assigning to them. In such a heap,
walking outwards from an environment finds a variable in the nearest environment that has it, which
is where its distance leads as well. Assigning to it changes that one variable, for every environment
from which it is the nearest.
-/

set_option autoImplicit false

namespace Loxley.Heap

/-! ## Building heaps -/

/-- What can be done to the environments of a heap. -/
inductive Operation where
  | create (enclosing : Option EnvironmentId)
  | define (environment : EnvironmentId) (name : Text) (value : Value)
  | assign (environment : EnvironmentId) (name : Text) (value : Value)
  | assignAt (environment : EnvironmentId) (distance : Nat) (name : Text) (value : Value)

namespace Operation

def subject? : Operation → Option EnvironmentId
  | create enclosing => enclosing
  | define environment _ _ | assign environment _ _ | assignAt environment _ _ _ => some environment

/-- The heap after an operation. One that fails leaves the heap as it is. -/
def perform (heap : Heap) : Operation → Heap
  | create enclosing => heap.create enclosing
  | define environment name value => heap.define environment name value
  | assign environment name value => (heap.assign? environment name value).getD heap
  | assignAt environment distance name value =>
    match heap.assignAt environment distance name value with
    | .ok (some after) => after
    | _ => heap

def isDefine : Operation → Bool
  | define .. => true
  | _ => false

end Operation

/-- Heaps that come from any sequence of operations on environments that exist. -/
inductive Built : Heap → Prop
  | empty : Built {}
  | step {heap : Heap} (built : Built heap) (operation : Operation)
      (known : ∀ environment ∈ operation.subject?, environment < heap.next) :
      Built (operation.perform heap)

variable {heap : Heap}

theorem binds_of_owner? {environment owner : EnvironmentId} {name : Text}
    (found : heap.owner? environment name = some owner) : heap.binds owner name = true := by
  have bound := List.find?_some found
  exact bound

theorem assignAt_eq_ok {environment : EnvironmentId} {distance : Nat} {name : Text} {value : Value}
    {after : Heap} (assigned : heap.assignAt environment distance name value = .ok (some after)) :
    ∃ owner, heap.binds owner name = true ∧ after = heap.define owner name value := by
  unfold assignAt ownerAt at assigned
  cases reached : heap.ancestor? environment distance with
  | none => simp [reached, Except.map] at assigned
  | some owner =>
      by_cases bound : heap.binds owner name = true
      · simp only [reached, bound, if_true, Except.map, Option.map_some, Except.ok.injEq,
          Option.some.injEq] at assigned
        exact ⟨owner, bound, assigned.symm⟩
      · simp [reached, bound, Except.map] at assigned

/-- All that an operation can do: add an environment, add a variable, or set one that exists. -/
theorem Operation.perform_cases (operation : Operation) (heap : Heap) :
    operation.perform heap = heap ∨
      (∃ enclosing, operation = .create enclosing ∧
        operation.perform heap = heap.create enclosing) ∨
      ∃ environment name value, operation.perform heap = heap.define environment name value ∧
        (operation.isDefine = true ∨ heap.binds environment name = true) := by
  cases operation with
  | create enclosing => exact .inr (.inl ⟨enclosing, rfl, rfl⟩)
  | define environment name value => exact .inr (.inr ⟨environment, name, value, rfl, .inl rfl⟩)
  | assign environment name value =>
      cases found : heap.owner? environment name with
      | none => exact .inl (by simp [perform, assign?, found])
      | some owner =>
          refine .inr (.inr ⟨owner, name, value, ?_, .inr (binds_of_owner? found)⟩)
          simp [perform, assign?, found]
  | assignAt environment distance name value =>
      cases assigned : heap.assignAt environment distance name value with
      | error reason => exact .inl (by simp [perform, assigned])
      | ok written =>
          cases written with
          | none => exact .inl (by simp [perform, assigned])
          | some after =>
              obtain ⟨owner, bound, rfl⟩ := assignAt_eq_ok assigned
              exact .inr (.inr ⟨owner, name, value, by simp [perform, assigned], .inr bound⟩)

/-- Every environment is younger than the one around it, so that no chain comes back to itself. -/
def Layered (heap : Heap) : Prop :=
  ∀ environment outer, heap.enclosing? environment = some outer → outer < environment

theorem Layered.create (layered : heap.Layered) {enclosing : Option EnvironmentId}
    (known : ∀ environment ∈ enclosing, environment < heap.next) :
    (heap.create enclosing).Layered := by
  intro environment outer inside
  rw [enclosing?_create] at inside
  split at inside
  · next fresh =>
      rw [fresh]
      exact known outer inside
  · exact layered environment outer inside

theorem Layered.define (layered : heap.Layered) (environment : EnvironmentId) (name : Text)
    (value : Value) : (heap.define environment name value).Layered := by
  intro inner outer inside
  rw [enclosing?_define] at inside
  exact layered inner outer inside

theorem Built.layered (built : heap.Built) : heap.Layered := by
  induction built with
  | empty =>
      intro environment outer inside
      simp [enclosing?] at inside
  | @step heap _ operation known ih =>
      rcases operation.perform_cases heap with
        same | ⟨enclosing, rfl, created⟩ | ⟨environment, name, value, defined, _⟩
      · rw [same]
        exact ih
      · rw [created]
        exact ih.create known
      · rw [defined]
        exact ih.define environment name value

/-! ## Walking outwards -/

/-- An environment lies a number of steps outwards from another one. -/
inductive Outward (heap : Heap) : EnvironmentId → Nat → EnvironmentId → Prop
  | here {environment : EnvironmentId} : Outward heap environment 0 environment
  | out {environment outer owner : EnvironmentId} {distance : Nat}
      (inside : heap.enclosing? environment = some outer)
      (further : Outward heap outer distance owner) :
      Outward heap environment (distance + 1) owner

/-- The first environment outwards from another one that has a variable. -/
structure Nearest (heap : Heap) (environment : EnvironmentId) (name : Text) (distance : Nat)
    (owner : EnvironmentId) : Prop where
  outward : heap.Outward environment distance owner
  binds : heap.binds owner name = true
  /-- None of the environments on the way has the variable. -/
  passed : ∀ closer < distance, ∀ other,
    heap.Outward environment closer other → heap.binds other name = false

theorem ancestor?_succ_of_none {environment : EnvironmentId}
    (outermost : heap.enclosing? environment = none) (distance : Nat) :
    heap.ancestor? environment (distance + 1) = none := by
  rw [ancestor?, chain, outermost]
  rfl

theorem Layered.ancestor?_eq_some_iff (layered : heap.Layered) {environment owner : EnvironmentId}
    {distance : Nat} :
    heap.ancestor? environment distance = some owner ↔
      heap.Outward environment distance owner := by
  induction distance generalizing environment with
  | zero =>
      rw [ancestor?_zero]
      constructor
      · rintro ⟨⟩
        exact .here
      · rintro ⟨⟩
        rfl
  | succ distance ih =>
      cases inside : heap.enclosing? environment with
      | none =>
          rw [ancestor?_succ_of_none inside]
          constructor
          · rintro ⟨⟩
          · rintro (_ | ⟨other, _⟩)
            rw [inside] at other
            cases other
      | some outer =>
          -- A chain goes on only to an older environment, and here every next one is older.
          rw [ancestor?_succ inside (layered environment outer inside), ih]
          constructor
          · exact .out inside
          · rintro (_ | ⟨other, further⟩)
            rw [inside] at other
            cases other
            exact further

theorem Layered.owner?_eq_some_iff (layered : heap.Layered) {environment owner : EnvironmentId}
    {name : Text} :
    heap.owner? environment name = some owner ↔
      ∃ distance, heap.Nearest environment name distance owner := by
  rw [owner?, List.find?_eq_some_iff_getElem]
  constructor
  · rintro ⟨bound, distance, inside, here, passed⟩
    refine ⟨distance, layered.ancestor?_eq_some_iff.mp ?_, bound, fun closer less other way => ?_⟩
    · rw [ancestor?, List.getElem?_eq_getElem inside, here]
    · have reached := layered.ancestor?_eq_some_iff.mpr way
      obtain ⟨known, rfl⟩ := List.getElem?_eq_some_iff.mp reached
      simpa using passed closer less
  · rintro ⟨distance, outward, bound, passed⟩
    obtain ⟨inside, here⟩ := List.getElem?_eq_some_iff.mp (layered.ancestor?_eq_some_iff.mpr outward)
    refine ⟨bound, distance, inside, here, fun closer less => ?_⟩
    have reached : heap.ancestor? environment closer = some _ :=
      List.getElem?_eq_getElem (Nat.lt_trans less inside)
    simpa using passed closer less _ (layered.ancestor?_eq_some_iff.mp reached)

theorem Layered.owner?_eq_none_iff (layered : heap.Layered) {environment : EnvironmentId}
    {name : Text} :
    heap.owner? environment name = none ↔
      ∀ distance owner, heap.Outward environment distance owner → heap.binds owner name = false := by
  rw [owner?, List.find?_eq_none]
  constructor
  · intro free distance owner outward
    have reached := layered.ancestor?_eq_some_iff.mpr outward
    simpa using free owner (List.mem_of_getElem? reached)
  · intro free owner member
    obtain ⟨distance, reached⟩ := List.mem_iff_getElem?.mp member
    simpa using free distance owner (layered.ancestor?_eq_some_iff.mp reached)

theorem get?_eq_bind (heap : Heap) (environment : EnvironmentId) (name : Text) :
    heap.get? environment name =
      (heap.owner? environment name).bind fun owner => heap.lookup? owner name := by
  rw [get?, owner?]
  induction heap.chain environment with
  | nil => rfl
  | cons first others ih =>
      rw [List.findSome?_cons, List.find?_cons, binds]
      cases held : heap.lookup? first name with
      | none => simpa using ih
      | some value => simp [held]

theorem get?_eq_none_iff {environment : EnvironmentId} {name : Text} :
    heap.get? environment name = none ↔ heap.owner? environment name = none := by
  rw [get?_eq_bind]
  cases found : heap.owner? environment name with
  | none => simp
  | some owner =>
      have bound := binds_of_owner? found
      rw [binds, Option.isSome_iff_ne_none] at bound
      simpa using bound

theorem Nearest.getAt {environment owner : EnvironmentId} {name : Text} {distance : Nat}
    (layered : heap.Layered) (nearest : heap.Nearest environment name distance owner) :
    heap.getAt environment distance name = .ok (heap.get? environment name) := by
  rw [Heap.getAt, layered.ancestor?_eq_some_iff.mpr nearest.outward, get?_eq_bind,
    layered.owner?_eq_some_iff.mpr ⟨distance, nearest⟩]
  rfl

theorem Nearest.assignAt {environment owner : EnvironmentId} {name : Text} {distance : Nat}
    (layered : heap.Layered) (nearest : heap.Nearest environment name distance owner)
    (value : Value) :
    heap.assignAt environment distance name value =
      .ok (heap.assign? environment name value) := by
  rw [Heap.assignAt, ownerAt, layered.ancestor?_eq_some_iff.mpr nearest.outward, assign?,
    layered.owner?_eq_some_iff.mpr ⟨distance, nearest⟩]
  simp [nearest.binds, Except.map]

/-! ## Setting one variable -/

/-- A heap in which one variable has a value, and which is otherwise the same as before. -/
structure Sets (owner : EnvironmentId) (name : Text) (value : Value) (before after : Heap) :
    Prop where
  next : after.next = before.next
  enclosing : ∀ environment, after.enclosing? environment = before.enclosing? environment
  cell : after.lookup? owner name = some value
  others : ∀ environment sought, ¬ (environment = owner ∧ sought = name) →
    after.lookup? environment sought = before.lookup? environment sought

theorem sets_define {owner : EnvironmentId} {name : Text} (bound : heap.binds owner name = true)
    (value : Value) : Sets owner name value heap (heap.define owner name value) where
  next := next_define ..
  enclosing _ := enclosing?_define ..
  cell := by simp [lookup?_define, lt_next_of_binds bound]
  others environment sought elsewhere := by
    rw [lookup?_define, if_neg fun same => elsewhere ⟨same.1, same.2.1⟩]

theorem owner?_define {owner : EnvironmentId} {name : Text} (bound : heap.binds owner name = true)
    (value : Value) (environment : EnvironmentId) (sought : Text) :
    (heap.define owner name value).owner? environment sought = heap.owner? environment sought := by
  have same : ∀ other, (heap.define owner name value).binds other sought =
      heap.binds other sought := by
    intro other
    rw [Bool.eq_iff_iff, binds_define_iff]
    constructor
    · rintro (old | ⟨rfl, rfl, _⟩)
      · exact old
      · exact bound
    · exact .inl
  rw [owner?, owner?, @chain_congr heap _ _ fun _ _ => enclosing?_define ..]
  simp only [same]

theorem get?_define {owner : EnvironmentId} {name : Text} (bound : heap.binds owner name = true)
    (value : Value) (environment : EnvironmentId) (sought : Text) :
    (heap.define owner name value).get? environment sought =
      if sought = name ∧ heap.owner? environment name = some owner then some value
      else heap.get? environment sought := by
  rw [get?_eq_bind, owner?_define bound, get?_eq_bind]
  split
  · next seen =>
      rw [seen.1, seen.2]
      exact (sets_define bound value).cell
  · next unseen =>
      cases found : heap.owner? environment sought with
      | none => rfl
      | some other =>
          refine (sets_define bound value).others other sought fun same => unseen ?_
          rw [← same.1, ← same.2]
          exact ⟨rfl, found⟩

/-! ## The names of an environment -/

theorem map_fst_setBinding {bindings : List (Text × Value)} {name : Text}
    (bound : (bindings.lookup name).isSome) (value : Value) :
    (Environment.setBinding name value bindings).map (·.1) = bindings.map (·.1) := by
  induction bindings with
  | nil => cases bound
  | cons binding others ih =>
      obtain ⟨held, content⟩ := binding
      by_cases here : held = name
      · simp [Environment.setBinding, here]
      · rw [List.lookup_cons, beq_eq_false_iff_ne.mpr (Ne.symm here)] at bound
        simp [Environment.setBinding, here, ih bound]

theorem names_define {owner : EnvironmentId} {name : Text} (bound : heap.binds owner name = true)
    (value : Value) (environment : EnvironmentId) :
    (heap.define owner name value).names environment = heap.names environment := by
  rw [names_eq_map_bindings, names_eq_map_bindings, bindings_define heap (lt_next_of_binds bound)]
  split
  · next here =>
      rw [binds, lookup?_eq_lookup_bindings] at bound
      rw [map_fst_setBinding bound, here]
  · rfl

@[simp] theorem names_create (heap : Heap) (enclosing : Option EnvironmentId)
    (environment : EnvironmentId) :
    (heap.create enclosing).names environment = heap.names environment := by
  rw [names_eq_map_bindings, names_eq_map_bindings, bindings_create]

theorem Operation.names_perform {operation : Operation} (noDefine : operation.isDefine = false)
    (heap : Heap) (environment : EnvironmentId) :
    (operation.perform heap).names environment = heap.names environment := by
  rcases operation.perform_cases heap with
    same | ⟨enclosing, _, created⟩ | ⟨owner, name, value, defined, defines | bound⟩
  · rw [same]
  · rw [created, names_create]
  · rw [noDefine] at defines
    cases defines
  · rw [defined, names_define bound]

/-! ## Walking and counting -/

/-- From where a variable is the nearest of its name its new value is seen, and from elsewhere nothing
changes. -/
structure Shows (owner : EnvironmentId) (name : Text) (value : Value) (before after : Heap) :
    Prop where
  nearest : ∀ environment distance, before.Nearest environment name distance owner →
    after.get? environment name = some value
  elsewhere : ∀ environment sought,
    (sought = name → ∀ distance, ¬ before.Nearest environment name distance owner) →
    after.get? environment sought = before.get? environment sought

theorem Layered.shows_define (layered : heap.Layered) {owner : EnvironmentId} {name : Text}
    (bound : heap.binds owner name = true) (value : Value) :
    Shows owner name value heap (heap.define owner name value) where
  nearest environment distance nearest := by
    rw [get?_define bound, if_pos ⟨rfl, layered.owner?_eq_some_iff.mpr ⟨distance, nearest⟩⟩]
  elsewhere environment sought far := by
    rw [get?_define bound, if_neg]
    rintro ⟨same, found⟩
    obtain ⟨distance, nearest⟩ := layered.owner?_eq_some_iff.mp found
    exact far same distance nearest

/-- An environment gets whatever is assigned to a variable only if that variable is the nearest. -/
theorem Shows.exists_nearest {owner environment : EnvironmentId} {name : Text} {assigned : Value → Heap}
    (shows_ : ∀ value, Shows owner name value heap (assigned value))
    (follows : ∀ value, (assigned value).get? environment name = some value) :
    ∃ distance, heap.Nearest environment name distance owner := by
  by_contra far
  have fixed : ∀ value, heap.get? environment name = some value := by
    intro value
    rw [← follows value]
    exact ((shows_ value).elsewhere environment name fun _ distance nearest =>
      far ⟨distance, nearest⟩).symm
  -- What it gets would not depend on what is assigned, though there are two values at least.
  have same := (fixed .nil).symm.trans (fixed (.bool true))
  cases same

/--
In every heap that operations can build, walking outwards finds the variable that the least distance
to one of its name leads to, for reading and for assigning alike. Assigning sets exactly that variable,
which is what the environments nearest to it get. Only definitions change which names there are.
-/
theorem Built.walking_finds_nearest (built : heap.Built) :
    (∀ environment name,
      (heap.get? environment name = none ↔
        ∀ distance owner, heap.Outward environment distance owner →
          heap.binds owner name = false) ∧
      (∀ value, heap.assign? environment name value = none ↔ heap.get? environment name = none) ∧
      (∀ value, heap.assign? environment name value = none →
        (Operation.assign environment name value).perform heap = heap) ∧
      (heap.get? environment name ≠ none →
        ∃ distance owner, heap.Nearest environment name distance owner ∧
          heap.getAt environment distance name = .ok (heap.get? environment name) ∧
          (∀ value, ∃ after, heap.assign? environment name value = some after ∧
            heap.assignAt environment distance name value = .ok (some after) ∧
            Sets owner name value heap after ∧ Shows owner name value heap after) ∧
          ∀ other, (∀ value, ∃ after, heap.assign? environment name value = some after ∧
              after.get? other name = some value) ↔
            ∃ steps, heap.Nearest other name steps owner)) ∧
    (∀ operation : Operation, operation.isDefine = false →
      ∀ environment, (operation.perform heap).names environment = heap.names environment) := by
  have layered := built.layered
  refine ⟨fun environment name => ⟨?_, fun value => ?_, fun value failed => ?_, fun found => ?_⟩,
    fun operation noDefine => Operation.names_perform noDefine heap⟩
  · rw [get?_eq_none_iff, layered.owner?_eq_none_iff]
  · rw [get?_eq_none_iff, assign?, Option.map_eq_none_iff]
  · rw [Operation.perform, failed]
    rfl
  · rw [Ne, get?_eq_none_iff, ← Ne, Option.ne_none_iff_exists'] at found
    obtain ⟨owner, found⟩ := found
    obtain ⟨distance, nearest⟩ := layered.owner?_eq_some_iff.mp found
    have assigned : ∀ value, heap.assign? environment name value =
        some (heap.define owner name value) := by
      intro value
      rw [assign?, found]
      rfl
    have shown := layered.shows_define nearest.binds
    refine ⟨distance, owner, nearest, nearest.getAt layered, fun value => ?_, fun other => ?_⟩
    · refine ⟨_, assigned value, ?_, sets_define nearest.binds value, shown value⟩
      rw [nearest.assignAt layered, assigned]
    · constructor
      · intro follows
        refine Shows.exists_nearest shown fun value => ?_
        obtain ⟨after, given, gets⟩ := follows value
        rw [assigned] at given
        cases given
        exact gets
      · rintro ⟨steps, near⟩ value
        exact ⟨_, assigned value, (shown value).nearest other steps near⟩

/-- Two environments in a third, which has a variable without a value that one of them hides. -/
def siblings : Heap :=
  [.create none, .define 0 "a" .nil, .create (some 0), .create (some 0),
    .define 2 "a" (.bool true)].foldl (fun heap operation => Operation.perform heap operation) {}

theorem Built.siblings : siblings.Built := by
  have outermost := Built.empty.step (.create none) (by simp [Operation.subject?])
  have declared := outermost.step (.define 0 "a" .nil) (by decide)
  have first := declared.step (.create (some 0)) (by decide)
  have second := first.step (.create (some 0)) (by decide)
  exact second.step (.define 2 "a" (.bool true)) (by decide)

theorem siblings_find_nearest :
    siblings.Built ∧ siblings.get? 1 "a" ≠ none ∧ siblings.get? 2 "a" = some (.bool true) ∧
    ∀ value, ∃ after, siblings.assign? 1 "a" value = some after ∧
      siblings.assignAt 1 1 "a" value = .ok (some after) ∧
      after.lookup? 0 "a" = some value ∧ after.get? 1 "a" = some value ∧
      after.get? 2 "a" = some (.bool true) := by
  have outwards : siblings.Outward 1 1 0 := .out rfl .here
  obtain ⟨missing, _, _, finds⟩ := (Built.siblings.walking_finds_nearest).1 1 "a"
  have present : siblings.get? 1 "a" ≠ none := by
    intro absent
    have unbound := missing.mp absent 1 0 outwards
    cases unbound
  have hidden : siblings.get? 2 "a" = some (.bool true) := by
    rw [get?, chain]
    rfl
  have found : ∀ {distance owner}, siblings.Nearest 1 "a" distance owner →
      distance = 1 ∧ owner = 0 := by
    rintro distance owner ⟨way, bound, _⟩
    rcases way with _ | ⟨inside, further⟩
    · cases bound
    · cases inside
      rcases further with _ | ⟨outside, _⟩
      · exact ⟨rfl, rfl⟩
      · cases outside
  obtain ⟨distance, owner, nearest, _, assigns, _⟩ := finds present
  obtain ⟨rfl, rfl⟩ := found nearest
  refine ⟨Built.siblings, present, hidden, fun value => ?_⟩
  obtain ⟨after, assigned, assignedAt, sets, shown⟩ := assigns value
  refine ⟨after, assigned, assignedAt, sets.cell, shown.nearest 1 1 nearest, ?_⟩
  rw [shown.elsewhere 2 "a", hidden]
  -- The variable of the second environment lies before that of the outermost one.
  rintro _ steps ⟨way, _, passed⟩
  rcases way with _ | ⟨_, _⟩
  have free := passed 0 (Nat.succ_pos _) 2 .here
  cases free

end Loxley.Heap
