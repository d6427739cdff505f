import Loxley.Proofs.Lexical.Semantics
import Loxley.Proofs.Likeness
import Loxley.Proofs.Spacing.Code

/-!
# Machines with spare environments

Two machines that hold the same, except that one of them has further environments between the others,
which have no variables. Its code was analysed with further scopes, so every distance leads to the
variable that it leads to on the other machine.
-/

set_option autoImplicit false

namespace Loxley

/-- The counterpart of each environment, with the gaps along the chain that starts there. -/
abbrev Spacing := List (EnvironmentId × Gaps)

namespace Spacing

/-- An environment has a counterpart at a place. -/
def Puts (spacing : Spacing) (environment place : EnvironmentId) (gaps : Gaps) : Prop :=
  spacing[environment]? = some (place, gaps)

variable {spacing later : Spacing} {environment place : EnvironmentId} {gaps : Gaps}

theorem Puts.lt (puts : spacing.Puts environment place gaps) : environment < spacing.length :=
  (List.getElem?_eq_some_iff.mp puts).1

theorem Puts.grow (puts : spacing.Puts environment place gaps) (grown : spacing <+: later) :
    later.Puts environment place gaps := by
  obtain ⟨more, rfl⟩ := grown
  exact (List.getElem?_append_left puts.lt).trans puts

/-- A new environment has the place that is new on the other machine. -/
theorem puts_append (spacing : Spacing) (place : EnvironmentId) (gaps : Gaps) :
    Puts (spacing ++ [(place, gaps)]) spacing.length place gaps := by
  simp [Puts]

theorem puts_append_cases {fresh : EnvironmentId} {others : Gaps}
    (puts : Puts (spacing ++ [(fresh, others)]) environment place gaps) :
    spacing.Puts environment place gaps ∨
      (environment = spacing.length ∧ place = fresh ∧ gaps = others) := by
  unfold Puts at puts
  rw [List.getElem?_append] at puts
  split at puts
  · exact .inl puts
  · next beyond =>
      rw [List.getElem?_singleton] at puts
      split at puts
      · next first =>
          obtain ⟨rfl, rfl⟩ := Prod.mk.inj (Option.some.inj puts)
          have last := Nat.le_antisymm (Nat.le_of_sub_eq_zero first) (Nat.le_of_not_lt beyond)
          exact .inr ⟨last, rfl, rfl⟩
      · cases puts

/-- Every environment is its own counterpart. -/
def same (heap : Heap) : Spacing :=
  (List.range heap.next).map fun environment => (environment, [])

theorem puts_same {heap : Heap} (known : environment < heap.next) :
    (same heap).Puts environment environment [] := by
  simp [Puts, same, known]

theorem eq_of_puts_same {heap : Heap} (puts : (same heap).Puts environment place gaps) :
    environment < heap.next ∧ place = environment ∧ gaps = [] := by
  have inside : environment < heap.next := by simpa [same] using puts.lt
  have itself : (same heap)[environment]? = some (environment, []) := puts_same inside
  obtain ⟨rfl, rfl⟩ := Prod.mk.inj (Option.some.inj (puts.symm.trans itself))
  exact ⟨inside, rfl, rfl⟩

end Spacing

section Relations

/-- The same value, with the code of a function as it has to be for where its environment is. -/
inductive Value.Spaced (spacing : Spacing) : Value → Value → Prop
  | plain {value : Value} (isPlain : ∀ closure, value ≠ .function closure) :
      Spaced spacing value value
  | function {closure : Closure} {place : EnvironmentId} {gaps : Gaps}
      (puts : spacing.Puts closure.scope place gaps) :
      Spaced spacing (.function closure)
        (.function
          { closure with body := Stmt.widenAll (0 :: gaps) closure.body, scope := place })

/--
A host function that does not look inside the functions of a program: it tells them apart at most by
what operators see of them, and makes up none beyond those that are known.
-/
def Native.Discreet (known : Value → Prop) (native : Native) : Prop :=
  native.Respects Eq fun alike =>
    (∀ value content, alike value content → value.outline = content.outline) ∧
      (∀ value, known value → alike value value) ∧ ∀ thing, alike (.foreign thing) (.foreign thing)

/-- The same environments, among spare ones. -/
structure Heap.Spaced (spacing : Spacing) (heap other : Heap) : Prop where
  length : spacing.length = heap.next
  top : ∃ gaps, spacing.Puts 0 0 gaps
  known : ∀ environment place gaps, spacing.Puts environment place gaps → place < other.next
  distinct : ∀ first second place gaps others, spacing.Puts first place gaps →
    spacing.Puts second place others → first = second
  names : ∀ environment place gaps, spacing.Puts environment place gaps →
    (heap.bindings environment).map (·.1) = (other.bindings place).map (·.1)
  values : ∀ environment place gaps, spacing.Puts environment place gaps → ∀ name,
    Option.Rel (Value.Spaced spacing) (heap.lookup? environment name) (other.lookup? place name)
  ancestors : ∀ environment place gaps, spacing.Puts environment place gaps → ∀ distance,
    Option.Rel (fun owner place => ∃ gaps, spacing.Puts owner place gaps)
      (heap.ancestor? environment distance) (other.ancestor? place (gaps.reach distance))

/--
The same machine, with spare environments. The gaps are those along the chain of the current
environment.
-/
structure Machine.Spaced (spacing : Spacing) (gaps : Gaps) (machine other : Machine) : Prop where
  heap : Heap.Spaced spacing machine.heap other.heap
  current : spacing.Puts machine.current other.current gaps
  depth : other.depth = machine.depth
  callLimit : other.callLimit = machine.callLimit
  closures : other.closures = machine.closures
  natives : other.natives = machine.natives
  told : List.Forall₂ (HostEvent.Alike Eq (Value.Spaced spacing)) machine.told other.told
  locals : other.locals = machine.locals
  output : other.output = machine.output
  host : ∀ native ∈ machine.natives, native.Respects Eq fun alike =>
    ∃ later, spacing <+: later ∧ alike = Value.Spaced later

end Relations

namespace Value.Spaced

variable {spacing later : Spacing} {value content : Value}

theorem ofLiteral (spacing : Spacing) (literal : Literal) :
    Value.Spaced spacing (.ofLiteral literal) (.ofLiteral literal) := by
  refine .plain fun closure => ?_
  cases literal <;> simp [Value.ofLiteral]

theorem grow (spaced : Value.Spaced spacing value content) (grown : spacing <+: later) :
    Value.Spaced later value content := by
  cases spaced with
  | plain isPlain => exact .plain isPlain
  | function puts => exact .function (puts.grow grown)

theorem outline (spaced : Value.Spaced spacing value content) :
    value.outline = content.outline := by
  cases spaced <;> rfl

theorem similar (spaced : Value.Spaced spacing value content) : value.Similar content := by
  cases spaced with
  | plain isPlain => exact .plain isPlain
  | function => exact .function rfl rfl rfl

/-- A value that belongs to a machine is its own counterpart there. -/
theorem of_knows {policy : HostPolicy} {machine : Machine}
    (known : machine.Knows policy value) : Value.Spaced (.same machine.heap) value value := by
  cases value with
  | nil | bool _ | number _ | string _ | native _ | foreign _ => exact .plain (by simp)
  | function closure =>
      obtain ⟨scopes, body, analysed⟩ := known
      have itself := Value.Spaced.function (Spacing.puts_same analysed.known)
      rwa [Stmt.widenAll,
        Stmt.adaptAll_of_fixes Adaptation.widening_fixes Gaps.closed_nil.enter] at itself

end Value.Spaced

namespace Heap

theorem bindings_next (heap : Heap) : heap.bindings heap.next = [] := by
  simp [bindings, next]

theorem mem_chain_le {heap : Heap} {environment owner : EnvironmentId}
    (member : owner ∈ heap.chain environment) : owner ≤ environment := by
  induction environment using Nat.strongRecOn with
  | ind environment ih =>
      rw [chain] at member
      split at member
      · exact Nat.le_of_eq (List.mem_singleton.mp member)
      · next outer _ =>
          split at member
          · next older =>
              rcases List.mem_cons.mp member with rfl | farther
              · exact Nat.le_refl _
              · exact Nat.le_trans (ih outer older farther) (Nat.le_of_lt older)
          · exact Nat.le_of_eq (List.mem_singleton.mp member)

theorem names_setBinding {bindings others : List (Text × Value)}
    (same : bindings.map (·.1) = others.map (·.1)) (name : Text) (value content : Value) :
    (Environment.setBinding name value bindings).map (·.1) =
      (Environment.setBinding name content others).map (·.1) := by
  induction bindings generalizing others with
  | nil =>
      rw [List.map_eq_nil_iff.mp same.symm]
      rfl
  | cons binding rest ih =>
      cases others with
      | nil => cases same
      | cons other more =>
          simp only [List.map_cons, List.cons.injEq] at same
          simp only [Environment.setBinding, same.1]
          split
          · simp [same.2]
          · simp [same.1, ih same.2]

namespace Spaced

variable {spacing : Spacing} {heap other : Heap} {environment place : EnvironmentId} {gaps : Gaps}

theorem inside (spaced : Heap.Spaced spacing heap other)
    (puts : spacing.Puts environment place gaps) : environment < heap.next :=
  spaced.length ▸ puts.lt

theorem binds (spaced : Heap.Spaced spacing heap other)
    (puts : spacing.Puts environment place gaps) (name : Text) :
    other.binds place name = heap.binds environment name := by
  have looked := spaced.values environment place gaps puts name
  simp only [Heap.binds]
  generalize heap.lookup? environment name = bound at looked
  generalize other.lookup? place name = found at looked
  cases looked <;> rfl

theorem define (spaced : Heap.Spaced spacing heap other)
    (puts : spacing.Puts environment place gaps) (name : Text) {value content : Value}
    (related : Value.Spaced spacing value content) :
    Heap.Spaced spacing (heap.define environment name value) (other.define place name content) := by
  have here := spaced.inside puts
  have there := spaced.known environment place gaps puts
  have elsewhere : ∀ {another position others}, spacing.Puts another position others →
      (position = place ↔ another = environment) := by
    intro another position others placed
    constructor
    · rintro rfl
      exact spaced.distinct another environment position others gaps placed puts
    · rintro rfl
      exact (Prod.mk.inj (Option.some.inj (placed.symm.trans puts))).1
  refine ⟨by simp [spaced.length], spaced.top, ?_, spaced.distinct, ?_, ?_, ?_⟩
  · intro another position others placed
    simpa using spaced.known another position others placed
  · intro another position others placed
    rw [Heap.bindings_define heap here, Heap.bindings_define other there]
    simp only [elsewhere placed]
    split
    · exact Heap.names_setBinding (spaced.names environment place gaps puts) name value content
    · exact spaced.names another position others placed
  · intro another position others placed sought
    rw [Heap.lookup?_define, Heap.lookup?_define]
    simp only [elsewhere placed, here, there, and_true]
    split
    · exact .some related
    · exact spaced.values another position others placed sought
  · intro another position others placed distance
    rw [(Extends.define heap environment name value).ancestor? (spaced.inside placed),
      (Extends.define other place name content).ancestor?
        (spaced.known another position others placed)]
    exact spaced.ancestors another position others placed distance

/-- Another environment that has no counterpart. -/
theorem spare (spaced : Heap.Spaced spacing heap other) (enclosing : Option EnvironmentId) :
    Heap.Spaced spacing heap (other.create enclosing) := by
  refine ⟨spaced.length, spaced.top, ?_, spaced.distinct, ?_, ?_, ?_⟩
  · intro another position others placed
    rw [next_create]
    exact Nat.lt_succ_of_lt (spaced.known another position others placed)
  · intro another position others placed
    simpa using spaced.names another position others placed
  · intro another position others placed name
    simpa using spaced.values another position others placed name
  · intro another position others placed distance
    rw [(Extends.create (fun _ => False) other enclosing).ancestor?
      (spaced.known another position others placed)]
    exact spaced.ancestors another position others placed distance

/-- A new environment, with spare ones between it and the counterpart of the one around it. -/
theorem create (spaced : Heap.Spaced spacing heap other)
    (puts : spacing.Puts environment place gaps) {gap : Nat} {around : EnvironmentId}
    (inHeap : around < other.next)
    (within : ∀ distance, other.ancestor? around (distance + gap) = other.ancestor? place distance) :
    Heap.Spaced (spacing ++ [(other.next, gap :: gaps)]) (heap.create (some environment))
      (other.create (some around)) := by
  have grown : spacing <+: spacing ++ [(other.next, gap :: gaps)] := List.prefix_append ..
  have fresh : Spacing.Puts (spacing ++ [(other.next, gap :: gaps)]) heap.next other.next
      (gap :: gaps) := spaced.length ▸ spacing.puts_append other.next (gap :: gaps)
  have here := spaced.inside puts
  have extended := Extends.create (fun _ => False) heap (some environment)
  have otherExtended := Extends.create (fun _ => False) other (some around)
  refine ⟨by simp [spaced.length], ?_, ?_, ?_, ?_, ?_, ?_⟩
  · obtain ⟨topGaps, top⟩ := spaced.top
    exact ⟨topGaps, top.grow grown⟩
  · intro another position others placed
    rw [next_create]
    rcases Spacing.puts_append_cases placed with old | ⟨_, rfl, _⟩
    · exact Nat.lt_succ_of_lt (spaced.known another position others old)
    · exact Nat.lt_succ_self _
  · intro first second position others more firstPlaced secondPlaced
    rcases Spacing.puts_append_cases firstPlaced with old | ⟨rfl, rfl, _⟩
    · rcases Spacing.puts_append_cases secondPlaced with alsoOld | ⟨_, rfl, _⟩
      · exact spaced.distinct first second position others more old alsoOld
      · exact absurd (spaced.known _ _ _ old) (Nat.lt_irrefl _)
    · rcases Spacing.puts_append_cases secondPlaced with alsoOld | ⟨same, _, _⟩
      · exact absurd (spaced.known _ _ _ alsoOld) (Nat.lt_irrefl _)
      · exact same.symm
  · intro another position others placed
    rw [bindings_create, bindings_create]
    rcases Spacing.puts_append_cases placed with old | ⟨rfl, rfl, _⟩
    · exact spaced.names another position others old
    · rw [spaced.length, bindings_next, bindings_next]
  · intro another position others placed name
    rw [lookup?_create, lookup?_create]
    rcases Spacing.puts_append_cases placed with old | ⟨rfl, rfl, _⟩
    · exact (spaced.values another position others old name).imp fun _ _ related =>
        related.grow grown
    · rw [spaced.length, lookup?_of_not_lt (Nat.lt_irrefl _), lookup?_of_not_lt (Nat.lt_irrefl _)]
      exact .none
  · intro another position others placed distance
    rcases Spacing.puts_append_cases placed with old | ⟨rfl, rfl, rfl⟩
    · rw [extended.ancestor? (spaced.inside old),
        otherExtended.ancestor? (spaced.known another position others old)]
      exact (spaced.ancestors another position others old distance).imp fun _ _ reached =>
        reached.imp fun _ placed => placed.grow grown
    · rw [spaced.length]
      cases distance with
      | zero =>
          rw [Gaps.reach_zero, ancestor?_zero, ancestor?_zero]
          exact .some ⟨_, fresh⟩
      | succ distance =>
          rw [Gaps.reach_cons_succ, ancestor?_succ (enclosing?_create_self ..) here,
            ancestor?_succ (enclosing?_create_self ..) inHeap, extended.ancestor? here,
            otherExtended.ancestor? inHeap, within]
          exact (spaced.ancestors environment place gaps puts distance).imp fun _ _ reached =>
            reached.imp fun _ placed => placed.grow grown

/-- On a sound machine, the environments are the same as themselves. -/
theorem of_sound {policy : HostPolicy} {machine : Machine} (isSound : machine.Sound policy) :
    Heap.Spaced (.same machine.heap) machine.heap machine.heap := by
  refine ⟨by simp [Spacing.same], ⟨[], Spacing.puts_same isSound.rooted⟩, ?_, ?_, ?_, ?_, ?_⟩
  · intro environment place gaps puts
    obtain ⟨known, rfl, _⟩ := Spacing.eq_of_puts_same puts
    exact known
  · intro first second place gaps others firstPuts secondPuts
    obtain ⟨_, rfl, _⟩ := Spacing.eq_of_puts_same firstPuts
    exact (Spacing.eq_of_puts_same secondPuts).2.1
  · intro environment place gaps puts
    obtain ⟨_, rfl, _⟩ := Spacing.eq_of_puts_same puts
    rfl
  · intro environment place gaps puts name
    obtain ⟨_, rfl, _⟩ := Spacing.eq_of_puts_same puts
    cases held : machine.heap.lookup? place name with
    | none => exact .none
    | some value => exact .some (.of_knows (isSound.values place name value held))
  · intro environment place gaps puts distance
    obtain ⟨known, rfl, rfl⟩ := Spacing.eq_of_puts_same puts
    rw [Gaps.reach_nil]
    cases reached : machine.heap.ancestor? place distance with
    | none => exact .none
    | some owner =>
        have older := mem_chain_le (List.mem_of_getElem? reached)
        exact .some ⟨[], Spacing.puts_same (Nat.lt_of_le_of_lt older known)⟩

end Spaced

end Heap

namespace Machine.Spaced

variable {spacing : Spacing} {gaps : Gaps} {machine other : Machine}

/-- A sound machine is the same as itself, if its host does not look inside functions. -/
theorem of_sound {policy : HostPolicy} (isSound : machine.Sound policy)
    (inHeap : machine.current < machine.heap.next)
    (discreet : ∀ native ∈ machine.natives, native.Discreet (machine.Knows policy)) :
    Machine.Spaced (.same machine.heap) [] machine machine := by
  refine ⟨.of_sound isSound, Spacing.puts_same inHeap, rfl, rfl, rfl, rfl, ?_, rfl, rfl, ?_⟩
  · refine List.forall₂_same.mpr fun event held => ?_
    exact (isSound.told event held).alike_self (fun _ => .of_knows) fun _ => .plain (by simp)
  · intro native member
    refine (discreet native member).fewer ?_
    rintro _ ⟨later, grown, rfl⟩
    refine ⟨fun _ _ related => related.outline, fun value known => ?_, fun _ => .plain (by simp)⟩
    exact (Value.Spaced.of_knows known).grow grown

theorem setHeap (spaced : Machine.Spaced spacing gaps machine other) {heap otherHeap : Heap}
    (spacedHeap : Heap.Spaced spacing heap otherHeap) :
    Machine.Spaced spacing gaps { machine with heap } { other with heap := otherHeap } :=
  { spaced with heap := spacedHeap }

theorem atDepth (spaced : Machine.Spaced spacing gaps machine other) {depth otherDepth : Nat}
    (same : otherDepth = depth) :
    Machine.Spaced spacing gaps { machine with depth } { other with depth := otherDepth } :=
  { spaced with depth := same }

theorem leaveTo {inner : Gaps} (spaced : Machine.Spaced spacing inner machine other)
    {environment place : EnvironmentId} (puts : spacing.Puts environment place gaps) :
    Machine.Spaced spacing gaps (Machine.leaveTo environment machine)
      (Machine.leaveTo place other) :=
  { spaced with current := puts }

/-- The machine on the right may have spare environments around the new one. -/
theorem enterApart (spaced : Machine.Spaced spacing gaps machine other)
    {outer place around : EnvironmentId} {outerGaps : Gaps} {gap : Nat}
    (puts : spacing.Puts outer place outerGaps) (inHeap : around < other.heap.next)
    (within : ∀ distance, other.heap.ancestor? around (distance + gap) =
      other.heap.ancestor? place distance) :
    Machine.Spaced (spacing ++ [(other.heap.next, gap :: outerGaps)]) (gap :: outerGaps)
      (machine.enter outer) (other.enter around) := by
  have fresh := spacing.puts_append other.heap.next (gap :: outerGaps)
  rw [spaced.heap.length] at fresh
  refine { spaced with
    heap := spaced.heap.create puts inHeap within, current := fresh, told := ?_, host := ?_ }
  · exact spaced.told.imp fun _ _ related =>
      related.imp fun _ _ alike => alike.grow (List.prefix_append ..)
  · refine fun native member => (spaced.host native member).fewer ?_
    rintro _ ⟨later, grown, rfl⟩
    exact ⟨later, (List.prefix_append ..).trans grown, rfl⟩

theorem enter (spaced : Machine.Spaced spacing gaps machine other)
    {outer place : EnvironmentId} {outerGaps : Gaps}
    (puts : spacing.Puts outer place outerGaps) :
    Machine.Spaced (spacing ++ [(other.heap.next, 0 :: outerGaps)]) (0 :: outerGaps)
      (machine.enter outer) (other.enter place) :=
  spaced.enterApart puts (spaced.heap.known outer place outerGaps puts) fun _ => rfl

theorem writeLine (spaced : Machine.Spaced spacing gaps machine other) (text : Text) :
    Machine.Spaced spacing gaps (machine.writeLine text) (other.writeLine text) :=
  { spaced with output := congrArg (·.push (text ++ [Text.newline])) spaced.output }

theorem countCall (spaced : Machine.Spaced spacing gaps machine other) (identity : Nat)
    {arguments contents : List Value}
    (related : List.Forall₂ (Value.Spaced spacing) arguments contents) :
    Machine.Spaced spacing gaps (machine.countCall identity arguments)
      (other.countCall identity contents) := by
  refine { spaced with natives := ?_, told := .cons (.called related) spaced.told, host := ?_ }
  · simp only [Machine.countCall, spaced.natives]
  · intro native member
    obtain ⟨index, inside, rfl⟩ := Array.mem_iff_getElem.mp member
    have sameSize : index < machine.natives.size := by simpa [Machine.countCall] using inside
    have kept := spaced.host _ (Array.getElem_mem sameSize)
    simp only [Machine.countCall, Array.getElem_modify]
    split
    · exact kept
    · exact kept

theorem tell (spaced : Machine.Spaced spacing gaps machine other) {reply given : HostReply}
    (related : HostReply.Alike Eq (Value.Spaced spacing) reply given) :
    Machine.Spaced spacing gaps (machine.tell reply) (other.tell given) :=
  { spaced with told := .cons (.replied related) spaced.told }

theorem declare (spaced : Machine.Spaced spacing gaps machine other) {name renamed : Token}
    (sameName : renamed.lexeme = name.lexeme) {value content : Value}
    (related : Value.Spaced spacing value content) :
    Machine.Spaced spacing gaps (machine.declare name value) (other.declare renamed content) := by
  refine spaced.setHeap ?_
  rw [sameName]
  exact spaced.heap.define spaced.current name.lexeme related

theorem declareFunction (spaced : Machine.Spaced spacing gaps machine other) (name : Token)
    (parameters : List Token) (body : List ResolvedStmt) :
    Machine.Spaced spacing gaps (machine.declareFunction name parameters body)
      (other.declareFunction name parameters (Stmt.widenAll (0 :: gaps) body)) := by
  refine { spaced with heap := ?_, closures := congrArg (· + 1) spaced.closures }
  simp only [Machine.declareFunction, spaced.closures]
  refine spaced.heap.define spaced.current name.lexeme ?_
  let closure : Closure :=
    { identity := machine.closures, name, parameters, body, scope := machine.current }
  have puts : spacing.Puts closure.scope other.current gaps := spaced.current
  exact .function puts

end Machine.Spaced

end Loxley
