import Mathlib.Data.List.Forall2
import Loxley.Environment

/-!
# Environments in a heap

What creating an environment and setting a variable change, and what they leave alone. A heap that
grows keeps every chain of environments, so a distance stays valid once it was.
-/

set_option autoImplicit false

namespace Loxley

section Tables

variable {α β : Type}

/-- The same name with related values. -/
def Bound (relation : α → β → Prop) (binding : Text × α) (entry : Text × β) : Prop :=
  binding.1 = entry.1 ∧ relation binding.2 entry.2

variable {relation : α → β → Prop} {bindings : List (Text × α)} {entries : List (Text × β)}

theorem Bound.lookup (related : List.Forall₂ (Bound relation) bindings entries) (name : Text) :
    Option.Rel relation (bindings.lookup name) (entries.lookup name) := by
  induction related with
  | nil => exact .none
  | @cons binding entry bindings entries here _ ih =>
      obtain ⟨bound, value⟩ := binding
      obtain ⟨other, content⟩ := entry
      obtain ⟨rfl, same⟩ := here
      simp only [List.lookup_cons]
      cases name == bound with
      | true => exact .some same
      | false => exact ih

theorem Bound.names (related : List.Forall₂ (Bound relation) bindings entries) :
    bindings.map (·.1) = entries.map (·.1) := by
  rw [← List.forall₂_eq_eq_eq, List.forall₂_map_left_iff, List.forall₂_map_right_iff]
  exact related.imp fun _ _ here => here.1

/-- Related tables hold related values under whatever names they are asked for. -/
theorem Bound.contents (related : List.Forall₂ (Bound relation) bindings entries)
    (names : List Text) :
    List.Forall₂ (Bound relation)
      (names.filterMap fun name => (bindings.lookup name).map fun value => (name, value))
      (names.filterMap fun name => (entries.lookup name).map fun value => (name, value)) := by
  induction names with
  | nil => exact .nil
  | cons name rest ih =>
      have looked := Bound.lookup related name
      simp only [List.filterMap_cons]
      generalize bindings.lookup name = bound at looked
      generalize entries.lookup name = entry at looked
      cases looked with
      | none => exact ih
      | some same => exact .cons ⟨rfl, same⟩ ih

end Tables

namespace Environment

private theorem lookup_setBinding (bindings : List (Text × Value)) (name other : Text)
    (value : Value) :
    (setBinding name value bindings).lookup other =
      if other = name then some value else bindings.lookup other := by
  induction bindings with
  | nil =>
      by_cases same : other = name
      · simp [setBinding, same]
      · simp [setBinding, List.lookup_cons, same, beq_eq_false_iff_ne.mpr same]
  | cons binding others ih =>
      obtain ⟨bound, held⟩ := binding
      by_cases here : bound = name
      · subst bound
        by_cases same : other = name
        · simp [setBinding, same]
        · simp [setBinding, List.lookup_cons, same, beq_eq_false_iff_ne.mpr same]
      · by_cases same : other = bound
        · subst bound
          simp [setBinding, here]
        · simp [setBinding, here, List.lookup_cons, beq_eq_false_iff_ne.mpr same, ih]

@[simp] theorem lookup?_set (environment : Environment) (name other : Text) (value : Value) :
    (environment.set name value).lookup? other =
      if other = name then some value else environment.lookup? other :=
  lookup_setBinding environment.bindings name other value

@[simp] theorem enclosing_set (environment : Environment) (name : Text) (value : Value) :
    (environment.set name value).enclosing = environment.enclosing := rfl

end Environment

namespace Heap

variable {heap : Heap}

@[simp] theorem next_define (heap : Heap) (environment : EnvironmentId) (name : Text)
    (value : Value) : (heap.define environment name value).next = heap.next := by
  simp [define, next]

@[simp] theorem next_create (heap : Heap) (enclosing : Option EnvironmentId) :
    (heap.create enclosing).next = heap.next + 1 := by
  simp [create, next]

@[simp] theorem enclosing?_define (heap : Heap) (environment other : EnvironmentId) (name : Text)
    (value : Value) :
    (heap.define environment name value).enclosing? other = heap.enclosing? other := by
  simp only [enclosing?, define, Array.getElem?_modify]
  split
  · cases heap.environments[other]? <;> rfl
  · rfl

theorem enclosing?_create (heap : Heap) (enclosing : Option EnvironmentId)
    (environment : EnvironmentId) :
    (heap.create enclosing).enclosing? environment =
      if environment = heap.next then enclosing else heap.enclosing? environment := by
  simp only [enclosing?, create, next, Array.getElem?_push]
  by_cases fresh : environment = heap.environments.size <;> simp [fresh]

theorem enclosing?_create_self (heap : Heap) (enclosing : Option EnvironmentId) :
    (heap.create enclosing).enclosing? heap.next = enclosing := by
  rw [enclosing?_create, if_pos rfl]

theorem enclosing?_create_of_lt {environment : EnvironmentId} (older : environment < heap.next)
    (enclosing : Option EnvironmentId) :
    (heap.create enclosing).enclosing? environment = heap.enclosing? environment := by
  rw [enclosing?_create, if_neg (Nat.ne_of_lt older)]

theorem lookup?_define (heap : Heap) (environment other : EnvironmentId) (name sought : Text)
    (value : Value) :
    (heap.define environment name value).lookup? other sought =
      if other = environment ∧ sought = name ∧ environment < heap.next then some value
      else heap.lookup? other sought := by
  simp only [lookup?, define, next, Array.getElem?_modify]
  by_cases here : environment = other
  · subst other
    by_cases known : environment < heap.environments.size
    · by_cases same : sought = name <;> simp [known, same]
    · simp [known]
  · simp [here, Ne.symm here]

@[simp] theorem lookup?_create (heap : Heap) (enclosing : Option EnvironmentId)
    (environment : EnvironmentId) (name : Text) :
    (heap.create enclosing).lookup? environment name = heap.lookup? environment name := by
  simp only [lookup?, create, Array.getElem?_push]
  split
  · next fresh => simp [fresh, Environment.lookup?]
  · rfl

theorem lookup?_of_not_lt {environment : EnvironmentId} (missing : ¬ environment < heap.next)
    (name : Text) : heap.lookup? environment name = none := by
  have outside : heap.environments.size ≤ environment := Nat.le_of_not_lt missing
  simp [lookup?, outside]

theorem lt_next_of_binds {environment : EnvironmentId} {name : Text}
    (bound : heap.binds environment name = true) : environment < heap.next := by
  by_cases known : environment < heap.next
  · exact known
  · simp [binds, lookup?_of_not_lt known] at bound

theorem binds_define_iff (heap : Heap) (environment other : EnvironmentId) (name sought : Text)
    (value : Value) :
    (heap.define environment name value).binds other sought = true ↔
      heap.binds other sought = true ∨
        (other = environment ∧ sought = name ∧ environment < heap.next) := by
  simp only [binds, lookup?_define]
  split
  · next here => simp [here]
  · next elsewhere => simp [elsewhere]

@[simp] theorem binds_create (heap : Heap) (enclosing : Option EnvironmentId)
    (environment : EnvironmentId) (name : Text) :
    (heap.create enclosing).binds environment name = heap.binds environment name := by
  simp [binds]

/-- The variables of exactly one environment, in the order of their declaration. -/
def bindings (heap : Heap) (environment : EnvironmentId) : List (Text × Value) :=
  (heap.environments[environment]?.map (·.bindings)).getD []

theorem names_eq_map_bindings (heap : Heap) (environment : EnvironmentId) :
    heap.names environment = ((heap.bindings environment).map (·.1)).mergeSort Text.le := by
  simp only [names, bindings]
  cases heap.environments[environment]? with
  | none => simp
  | some found => rfl

theorem lookup?_eq_lookup_bindings (heap : Heap) (environment : EnvironmentId) (name : Text) :
    heap.lookup? environment name = (heap.bindings environment).lookup name := by
  simp only [lookup?, bindings]
  cases heap.environments[environment]? <;> rfl

theorem bindings_define (heap : Heap) {environment : EnvironmentId}
    (known : environment < heap.next) (other : EnvironmentId) (name : Text) (value : Value) :
    (heap.define environment name value).bindings other =
      if other = environment then Environment.setBinding name value (heap.bindings environment)
      else heap.bindings other := by
  have inside : environment < heap.environments.size := known
  simp only [bindings, define, Array.getElem?_modify]
  by_cases here : environment = other
  · subst other
    simp [inside, Environment.set]
  · simp [here, Ne.symm here]

@[simp] theorem bindings_create (heap : Heap) (enclosing : Option EnvironmentId)
    (environment : EnvironmentId) :
    (heap.create enclosing).bindings environment = heap.bindings environment := by
  simp only [bindings, create, Array.getElem?_push]
  split
  · next fresh => simp [fresh]
  · rfl

theorem chain_of_some {environment outer : EnvironmentId}
    (inside : heap.enclosing? environment = some outer) (older : outer < environment) :
    heap.chain environment = environment :: heap.chain outer := by
  rw [chain, inside]
  simp [older]

/-- Nothing is older than the first environment, so its chain ends there. -/
@[simp] theorem chain_zero (heap : Heap) : heap.chain 0 = [0] := by
  rw [chain]
  split
  · rfl
  · simp

/-- A chain depends only on what encloses the environments up to its start. -/
theorem chain_congr {left right : Heap} {environment : EnvironmentId}
    (agree : ∀ inner ≤ environment, right.enclosing? inner = left.enclosing? inner) :
    right.chain environment = left.chain environment := by
  induction environment using Nat.strongRecOn with
  | ind environment ih =>
      rw [chain, chain.eq_def left, agree environment (Nat.le_refl _)]
      cases inside : left.enclosing? environment with
      | none => rfl
      | some outer =>
          by_cases older : outer < environment
          · simp only [older, if_true]
            rw [ih outer older fun inner below =>
              agree inner (Nat.le_trans below (Nat.le_of_lt older))]
          · simp only [older, if_false]

@[simp] theorem ancestor?_zero (heap : Heap) (environment : EnvironmentId) :
    heap.ancestor? environment 0 = some environment := by
  rw [ancestor?, chain]
  split
  · rfl
  · split <;> rfl

theorem ancestor?_succ {environment outer : EnvironmentId}
    (inside : heap.enclosing? environment = some outer) (older : outer < environment)
    (distance : Nat) :
    heap.ancestor? environment (distance + 1) = heap.ancestor? outer distance := by
  simp [ancestor?, chain_of_some inside older]

/--
A later heap keeps the environments and variables of an earlier one. Of the earlier environments,
only those that are marked as growing may have gained variables.
-/
structure Extends (growing : EnvironmentId → Prop) (before after : Heap) : Prop where
  next : before.next ≤ after.next
  enclosing : ∀ environment < before.next,
    after.enclosing? environment = before.enclosing? environment
  kept : ∀ environment name,
    before.binds environment name = true → after.binds environment name = true
  closed : ∀ environment < before.next, ¬ growing environment → ∀ name,
    after.binds environment name = true → before.binds environment name = true

namespace Extends

variable {growing : EnvironmentId → Prop} {before middle after : Heap}

protected theorem refl (growing : EnvironmentId → Prop) (heap : Heap) :
    Extends growing heap heap where
  next := Nat.le_refl _
  enclosing _ _ := rfl
  kept _ _ bound := bound
  closed _ _ _ _ bound := bound

protected theorem trans (first : Extends growing before middle)
    (second : Extends growing middle after) : Extends growing before after where
  next := Nat.le_trans first.next second.next
  enclosing environment known :=
    (second.enclosing environment (Nat.lt_of_lt_of_le known first.next)).trans
      (first.enclosing environment known)
  kept environment name bound := second.kept environment name (first.kept environment name bound)
  closed environment known fixed name bound :=
    first.closed environment known fixed name
      (second.closed environment (Nat.lt_of_lt_of_le known first.next) fixed name bound)

/-- More environments may be marked as growing, as long as the earlier heap has none of them. -/
theorem weaken {wider : EnvironmentId → Prop} (extended : Extends growing before after)
    (covered : ∀ environment < before.next, growing environment → wider environment) :
    Extends wider before after where
  next := extended.next
  enclosing := extended.enclosing
  kept := extended.kept
  closed environment known fixed :=
    extended.closed environment known fun grows => fixed (covered environment known grows)

theorem define (heap : Heap) (environment : EnvironmentId) (name : Text) (value : Value) :
    Extends (· = environment) heap (heap.define environment name value) where
  next := by simp
  enclosing := by simp
  kept other sought bound := (binds_define_iff ..).mpr (.inl bound)
  closed other _ fixed sought bound := by
    rcases (binds_define_iff ..).mp bound with before | ⟨here, _, _⟩
    · exact before
    · exact absurd here fixed

theorem define_of_binds {environment : EnvironmentId} {name : Text}
    (present : heap.binds environment name = true) (value : Value) :
    Extends growing heap (heap.define environment name value) where
  next := by simp
  enclosing := by simp
  kept other sought bound := (binds_define_iff ..).mpr (.inl bound)
  closed other _ _ sought bound := by
    rcases (binds_define_iff ..).mp bound with before | ⟨rfl, rfl, _⟩
    · exact before
    · exact present

theorem create (growing : EnvironmentId → Prop) (heap : Heap) (enclosing : Option EnvironmentId) :
    Extends growing heap (heap.create enclosing) where
  next := by simp
  enclosing environment known := enclosing?_create_of_lt known enclosing
  kept _ _ bound := by simpa using bound
  closed _ _ _ _ bound := by simpa using bound

theorem ancestor? (extended : Extends growing before after) {environment : EnvironmentId}
    (known : environment < before.next) (distance : Nat) :
    after.ancestor? environment distance = before.ancestor? environment distance := by
  rw [Heap.ancestor?, Heap.ancestor?,
    chain_congr fun inner below => extended.enclosing inner (Nat.lt_of_le_of_lt below known)]

end Extends

end Heap

end Loxley
