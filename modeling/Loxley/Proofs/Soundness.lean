import Loxley.Proofs.Accepted
import Loxley.Proofs.Frame
import Loxley.Proofs.Scope

/-!
# Sound machines

A machine is sound if every closure on it runs accepted code, analysed under scopes that the
environment of the closure covers, and if its host makes up no functions. Running accepted code on a
sound machine leaves a sound machine behind, and stops the interpreter at most where it meets a thing
of the host that a host function has handed on to a function.
-/

set_option autoImplicit false

namespace Loxley

/-- How the code of a closure was analysed, and that its environment fits the analysis. -/
structure Closure.AnalysedAs (heap : Heap) (closure : Closure) (scopes : Scopes)
    (body : List (Stmt Unit)) : Prop where
  known : closure.scope < heap.next
  covers : heap.Covers scopes closure.scope
  resolved : closure.body = Stmt.resolveAll (scopes.enterFunction closure.parameters) body
  accepted : Stmt.AcceptedAll true (scopes.enterFunction closure.parameters) body

/--
What comes from a host besides values of the language: things of its own, with which its functions
answer or which they hand on to functions.
-/
structure HostPolicy where
  answers : Foreign → Prop
  handsOn : Foreign → Prop

/-- Host functions that only ever give values of the language. -/
def HostPolicy.valuesOnly : HostPolicy where
  answers _ := False
  handsOn _ := False

/-- Host functions that may give anything. -/
def HostPolicy.unrestricted : HostPolicy where
  answers _ := True
  handsOn _ := True

/--
A value that programs on a machine can hold, given its heap, how many host functions it has, and
which things these hand on.
-/
def Value.Sound (policy : HostPolicy) (heap : Heap) (natives : Nat) : Value → Prop
  | .function closure => ∃ scopes body, closure.AnalysedAs heap scopes body
  | .native reference => reference.identity < natives
  | .foreign thing => policy.handsOn thing
  | .nil | .bool _ | .number _ | .string _ => True

theorem Value.sound_ofLiteral (policy : HostPolicy) (heap : Heap) (natives : Nat)
    (literal : Literal) : (Value.ofLiteral literal).Sound policy heap natives := by
  cases literal <;> trivial

theorem Closure.AnalysedAs.extend {growing : EnvironmentId → Prop} {before after : Heap}
    {closure : Closure} {scopes : Scopes} {body : List (Stmt Unit)}
    (analysed : closure.AnalysedAs before scopes body)
    (extended : Heap.Extends growing before after) : closure.AnalysedAs after scopes body where
  known := Nat.lt_of_lt_of_le analysed.known extended.next
  covers := analysed.covers.extend extended analysed.known
  resolved := analysed.resolved
  accepted := analysed.accepted

theorem Value.Sound.extend {policy : HostPolicy} {growing : EnvironmentId → Prop}
    {before after : Heap} {natives : Nat} {value : Value} (sound : value.Sound policy before natives)
    (extended : Heap.Extends growing before after) : value.Sound policy after natives := by
  cases value with
  | nil | bool _ | number _ | string _ => trivial
  | native _ | foreign _ => exact sound
  | function closure =>
      obtain ⟨scopes, body, analysed⟩ := sound
      exact ⟨scopes, body, analysed.extend extended⟩

/-- The faults at things of the host, if there are any that host functions hand on. -/
def Fault.Foreign (policy : HostPolicy) : Fault → Prop
  | .foreignValue | .incomparable _ => ∃ thing, policy.handsOn thing
  | _ => False

section Host

variable (answers : Foreign → Prop) (known : Value → Prop)

/-- A reply with a known value, or with a thing with which host functions answer. -/
def HostReply.Within (reply : HostReply) : Prop :=
  known reply.value ∨ ∃ thing, answers thing ∧ reply.value = .foreign thing

def HostEvent.Within : HostEvent → Prop
  | .called _ arguments => ∀ argument ∈ arguments, known argument
  | .replied reply => reply.Within answers known

end Host

/--
An action that makes up no functions: functions are applied to the right number of arguments, and
both the functions and the arguments are known by then. More may be known after every reply.
-/
def HostAction.Honest (answers : Foreign → Prop) : HostAction → (Value → Prop) → Prop
  | .answer reply, known => reply.Within answers known
  | .apply callee arguments next, known =>
    known callee ∧ (∀ argument ∈ arguments, known argument) ∧
      callee.arity? = some (arguments.length : Int) ∧
      ∀ later : Value → Prop, (∀ value, known value → later value) →
        ∀ told reply, (∀ event ∈ told, event.Within answers later) →
          reply.Within answers later → (next told reply).Honest answers later

/--
A host function that makes up no functions. It works with its arguments, with what the host got to
know before, and with values that are good from the start.
-/
def HonestCode (answers : Foreign → Prop) (good : Value → Prop)
    (act : Nat → List HostEvent → List Value → HostAction) : Prop :=
  ∀ known : Value → Prop, (∀ value, good value → known value) →
    ∀ calls told arguments, (∀ event ∈ told, event.Within answers known) →
      (∀ argument ∈ arguments, known argument) → (act calls told arguments).Honest answers known

theorem HonestCode.imp {answers : Foreign → Prop} {weak strong : Value → Prop}
    {act : Nat → List HostEvent → List Value → HostAction} (honest : HonestCode answers strong act)
    (implies : ∀ value, strong value → weak value) : HonestCode answers weak act :=
  fun known good => honest known fun value holds => good value (implies value holds)

section Knowing

variable {answers : Foreign → Prop} {known later : Value → Prop}
  (implies : ∀ value, known value → later value)

include implies

theorem HostReply.Within.imp {reply : HostReply} (within : reply.Within answers known) :
    reply.Within answers later :=
  Or.imp_left (implies _) within

theorem HostEvent.Within.imp {event : HostEvent} (within : event.Within answers known) :
    event.Within answers later := by
  cases event with
  | called identity arguments => exact fun argument member => implies _ (within argument member)
  | replied reply => exact HostReply.Within.imp implies within

end Knowing

namespace Machine

/-- A value that programs on this machine can hold. -/
def Knows (policy : HostPolicy) (machine : Machine) (value : Value) : Prop :=
  value.Sound policy machine.heap machine.hostCode.size

/--
Every variable holds a value that belongs to the machine, and so does what the host got to know,
except for things of its own that it was given back. The host functions make up no functions.
-/
structure Sound (policy : HostPolicy) (machine : Machine) : Prop where
  rooted : 0 < machine.heap.next
  values : ∀ environment name value, machine.heap.lookup? environment name = some value →
    machine.Knows policy value
  told : ∀ event ∈ machine.told, event.Within policy.answers (machine.Knows policy)
  host : ∀ code ∈ machine.hostCode, HonestCode policy.answers (machine.Knows policy) code.2

variable {policy : HostPolicy} {machine before after : Machine}
  {growing : EnvironmentId → Prop}

theorem Knows.follow {value : Value} (known : before.Knows policy value)
    (follows : Follows growing before after) : after.Knows policy value := by
  unfold Knows
  rw [follows.host]
  exact known.extend follows.heap

/-- A sound machine stays sound as long as only values that belong to it are stored and told. -/
theorem Sound.follow (sound : before.Sound policy) (follows : Follows growing before after)
    (values : ∀ environment name value, after.heap.lookup? environment name = some value →
      before.heap.lookup? environment name = some value ∨ after.Knows policy value)
    (told : ∀ event ∈ after.told,
      event ∈ before.told ∨ event.Within policy.answers (after.Knows policy)) :
    after.Sound policy where
  rooted := Nat.lt_of_lt_of_le sound.rooted follows.heap.next
  values environment name value found :=
    (values environment name value found).elim
      (fun old => (sound.values environment name value old).follow follows) id
  told event member :=
    (told event member).elim
      (fun old => (sound.told event old).imp fun _ known => known.follow follows) id
  host code member := by
    rw [follows.host] at member
    exact (sound.host code member).imp fun value known => known.follow follows

theorem Sound.writeLine (sound : machine.Sound policy) (text : Text) :
    (machine.writeLine text).Sound policy :=
  ⟨sound.rooted, sound.values, sound.told, sound.host⟩

theorem Sound.define (sound : machine.Sound policy) {environment : EnvironmentId} {name : Text}
    {value : Value} (follows : Follows growing machine
      { machine with heap := machine.heap.define environment name value })
    (known : machine.Knows policy value) :
    Machine.Sound policy { machine with heap := machine.heap.define environment name value } := by
  refine sound.follow follows (fun other sought held found => ?_) fun _ old => .inl old
  rw [Heap.lookup?_define] at found
  split at found
  · cases found
    exact .inr (known.follow follows)
  · exact .inl found

theorem Sound.countCall (sound : machine.Sound policy) (identity : Nat) {arguments : List Value}
    (known : ∀ argument ∈ arguments, machine.Knows policy argument) :
    (machine.countCall identity arguments).Sound policy := by
  have follows := Follows.countCall (fun _ => False) machine identity arguments
  refine sound.follow follows (fun _ _ _ found => .inl found) fun event member => ?_
  rcases List.mem_cons.mp member with rfl | old
  · exact .inr fun argument given => (known argument given).follow follows
  · exact .inl old

theorem Sound.tell (sound : machine.Sound policy) {reply : HostReply}
    (within : reply.Within policy.answers (machine.Knows policy)) :
    (machine.tell reply).Sound policy := by
  refine sound.follow (.tell (fun _ => False) machine reply) (fun _ _ _ found => .inl found)
    fun event member => ?_
  rcases List.mem_cons.mp member with rfl | old
  · exact .inr within
  · exact .inl old

theorem Sound.leaveTo (sound : machine.Sound policy) (environment : EnvironmentId) :
    (leaveTo environment machine).Sound policy :=
  ⟨sound.rooted, sound.values, sound.told, sound.host⟩

theorem Sound.atDepth (sound : machine.Sound policy) (depth : Nat) :
    Machine.Sound policy { machine with depth } :=
  ⟨sound.rooted, sound.values, sound.told, sound.host⟩

theorem Sound.enter (sound : machine.Sound policy) {outer : EnvironmentId} :
    (machine.enter outer).Sound policy := by
  have extended := Heap.Extends.create (fun _ => False) machine.heap (some outer)
  have kept : ∀ value, machine.Knows policy value → (machine.enter outer).Knows policy value :=
    fun value known => known.extend extended
  refine ⟨Nat.lt_of_lt_of_le sound.rooted extended.next, ?_, ?_, ?_⟩
  · intro environment name value found
    have old : machine.heap.lookup? environment name = some value :=
      (Heap.lookup?_create ..).symm.trans found
    exact kept value (sound.values environment name value old)
  · intro event member
    exact (sound.told event member).imp kept
  · intro code member
    exact (sound.host code member).imp kept

theorem Sound.honest (sound : machine.Sound policy) {identity : Nat} {native : Native}
    (found : machine.natives[identity]? = some native) :
    HonestCode policy.answers (machine.Knows policy) native.act :=
  sound.host (native.name, native.act)
    (Array.mem_map.mpr ⟨native, Array.mem_of_getElem? found, rfl⟩)

/-- A sound machine on which code can run that is analysed under some scopes. -/
structure Ready (policy : HostPolicy) (machine : Machine) (scopes : Scopes) : Prop where
  sound : machine.Sound policy
  hosted : machine.heap.Hosts scopes machine.current

namespace Ready

variable {scopes : Scopes}

/-- What ran in between added nothing to the current environment. -/
theorem follow (ready : before.Ready policy scopes) (isSound : after.Sound policy)
    (follows : Follows (fun _ => False) before after) : after.Ready policy scopes :=
  ⟨isSound, follows.current ▸ ready.hosted.extend follows.heap fun none => none⟩

theorem atTop (isSound : machine.Sound policy) (isTop : machine.current = globals) :
    machine.Ready policy [] :=
  ⟨isSound, isTop ▸ .globals isSound.rooted⟩

/-- Outside of all scopes, what ran in between may have added anything. -/
theorem followTop (ready : before.Ready policy []) (isSound : after.Sound policy)
    (follows : Follows growing before after) : after.Ready policy [] :=
  .atTop isSound (follows.current.trans (ready.hosted.isTop.mp rfl))

/-- A new environment adds a scope that declares nothing yet. -/
theorem enter (isSound : machine.Sound policy) {outer : EnvironmentId}
    (covered : machine.heap.Covers scopes outer) (known : outer < machine.heap.next) :
    (machine.enter outer).Ready policy ([] :: scopes) :=
  ⟨isSound.enter, .enter covered known⟩

theorem declare (ready : machine.Ready policy scopes) (name : Token) {value : Value}
    (known : machine.Knows policy value) :
    (machine.declare name value).Ready policy (scopes.declare name.lexeme true) :=
  ⟨ready.sound.define (.declare machine name value) known,
    ready.hosted.declare name.lexeme value⟩

theorem declareFunction (ready : machine.Ready policy scopes) {name : Token} {parameters : List Token}
    {body : List (Stmt Unit)} (accepted : Stmt.AcceptedAll true
      ((scopes.declare name.lexeme true).enterFunction parameters) body) :
    (machine.declareFunction name parameters (Stmt.resolveAll
      ((scopes.declare name.lexeme true).enterFunction parameters) body)).Ready policy
        (scopes.declare name.lexeme true) := by
  have hosted := fun value => ready.hosted.declare name.lexeme value
  refine ⟨ready.sound.follow (.declareFunction machine name parameters _)
    (fun other sought held found => ?_) fun _ old => .inl old, hosted _⟩
  rw [Machine.declareFunction, Heap.lookup?_define] at found
  split at found
  · cases found
    -- The closure is stored in the environment that it captures, so its own name is covered too.
    exact .inr ⟨_, body, (hosted _).known, (hosted _).covers, rfl, accepted⟩
  · exact .inl found

/-- Arguments land in the scope of the parameters, which are declared one after the other. -/
theorem bindParameters {parameters : List Token} {arguments : List Value}
    (ready : machine.Ready policy scopes)
    (known : ∀ argument ∈ arguments, machine.Knows policy argument)
    (enough : parameters.length ≤ arguments.length) :
    (bindParameters parameters arguments machine).Ready policy
      (parameters.foldl (fun inner parameter => inner.declare parameter.lexeme true) scopes) := by
  induction parameters generalizing arguments machine scopes with
  | nil => exact ready
  | cons parameter parameters ih =>
      cases arguments with
      | nil => simp at enough
      | cons argument arguments =>
          have follows := Follows.declare machine parameter argument
          exact ih (ready.declare parameter (known argument (.head _)))
            (fun value member => (known value (.tail _ member)).follow follows)
            (Nat.le_of_succ_le_succ enough)

/-- With its parameters bound, the body of a closure can run. -/
theorem of_analysed {closure : Closure} {arguments : List Value} {body : List (Stmt Unit)}
    (analysed : closure.AnalysedAs machine.heap scopes body) (isSound : machine.Sound policy)
    (known : ∀ argument ∈ arguments, machine.Knows policy argument)
    (enough : closure.parameters.length ≤ arguments.length) :
    (Machine.bindParameters closure.parameters arguments (machine.enter closure.scope)).Ready policy
      (scopes.enterFunction closure.parameters) := by
  have entered : (machine.enter closure.scope).Ready policy ([] :: scopes) :=
    .enter isSound analysed.covers analysed.known
  refine entered.bindParameters (fun argument member => ?_) enough
  exact (known argument member).extend (.create (fun _ => False) machine.heap (some closure.scope))

end Ready

end Machine

/-- Operators give literal values, whatever they are applied to. -/
theorem UnaryOp.apply_eq_ok {op : UnaryOp} {operand value : Value}
    (applied : op.apply operand = .ok value) : ∃ literal, value = .ofLiteral literal := by
  cases op with
  | not => cases applied; exact ⟨.bool _, rfl⟩
  | negate =>
      cases operand <;> cases applied
      exact ⟨.number _, rfl⟩

private theorem Value.onNumbers_eq_ok {operation : Float → Float → Except Mishap Value}
    (literal : ∀ left right value, operation left right = .ok value →
      ∃ literal, value = .ofLiteral literal)
    {left right value : Value} (applied : Value.onNumbers operation left right = .ok value) :
    ∃ literal, value = .ofLiteral literal := by
  unfold Value.onNumbers at applied
  split at applied
  · exact literal _ _ _ applied
  · cases applied

theorem BinaryOp.apply_eq_ok {op : BinaryOp} {left right value : Value}
    (applied : op.apply left right = .ok value) : ∃ literal, value = .ofLiteral literal := by
  cases op with
  | equal | notEqual => cases applied; exact ⟨.bool _, rfl⟩
  | add =>
      simp only [BinaryOp.apply, Value.add] at applied
      split at applied <;> cases applied
      · exact ⟨.number _, rfl⟩
      · exact ⟨.string _, rfl⟩
      · exact ⟨.string _, rfl⟩
  | subtract | multiply =>
      refine Value.onNumbers_eq_ok (fun _ _ _ computed => ?_) applied
      cases computed
      exact ⟨.number _, rfl⟩
  | divide =>
      refine Value.onNumbers_eq_ok (fun _ _ _ computed => ?_) applied
      split at computed <;> cases computed
      exact ⟨.number _, rfl⟩
  | greater | greaterEqual | less | lessEqual =>
      refine Value.onNumbers_eq_ok (fun _ _ _ computed => ?_) applied
      cases computed
      exact ⟨.bool _, rfl⟩

end Loxley
