import Loxley.Proofs.Heap
import Loxley.Proofs.Plan

/-!
# What running code leaves alone

However a computation ends, the machine is back in the environment and at the depth where it
started, its limit is what it was, what has been printed stays printed, and the heap has only grown.
Expressions and calls add no variable to an environment that existed before; a statement adds
variables at most to the environment in which it runs.
-/

set_option autoImplicit false

namespace Loxley

namespace Machine

/-- The names and the code of the host functions, without how often they were called. -/
def hostCode (machine : Machine) :
    Array (Text × (Nat → List HostEvent → List Value → HostAction)) :=
  machine.natives.map fun native => (native.name, native.act)

/-- What a later machine has in common with an earlier one. -/
structure Follows (growing : EnvironmentId → Prop) (before after : Machine) : Prop where
  current : after.current = before.current
  depth : after.depth = before.depth
  limit : after.callLimit = before.callLimit
  host : after.hostCode = before.hostCode
  told : before.told <:+ after.told
  locals : after.locals = before.locals
  output : before.output.toList <+: after.output.toList
  heap : Heap.Extends growing before.heap after.heap

namespace Follows

variable {growing : EnvironmentId → Prop} {before middle after : Machine}

protected theorem refl (growing : EnvironmentId → Prop) (machine : Machine) :
    Follows growing machine machine :=
  ⟨rfl, rfl, rfl, rfl, List.suffix_rfl, rfl, List.prefix_rfl, .refl growing _⟩

protected theorem trans (first : Follows growing before middle)
    (second : Follows growing middle after) : Follows growing before after :=
  ⟨second.current.trans first.current, second.depth.trans first.depth,
    second.limit.trans first.limit, second.host.trans first.host, first.told.trans second.told,
    second.locals.trans first.locals, first.output.trans second.output,
    first.heap.trans second.heap⟩

theorem imp {wider : EnvironmentId → Prop} (follows : Follows growing before after)
    (implies : ∀ environment, growing environment → wider environment) :
    Follows wider before after :=
  { follows with heap := follows.heap.weaken fun environment _ => implies environment }

/-- A computation that adds no variable to any older environment. -/
theorem weaken {wider : EnvironmentId → Prop} (follows : Follows (fun _ => False) before after) :
    Follows wider before after :=
  follows.imp fun _ none => none.elim

theorem writeLine (growing : EnvironmentId → Prop) (machine : Machine) (text : Text) :
    Follows growing machine (machine.writeLine text) := by
  refine { Follows.refl growing machine with output := ?_ }
  simp [Machine.writeLine, write]

theorem declare (machine : Machine) (name : Token) (value : Value) :
    Follows (· = machine.current) machine (machine.declare name value) :=
  { Follows.refl (fun _ => False) machine with
    heap := .define machine.heap machine.current name.lexeme value }

theorem declareFunction (machine : Machine) (name : Token) (parameters : List Token)
    (body : List ResolvedStmt) :
    Follows (· = machine.current) machine (machine.declareFunction name parameters body) :=
  { Follows.refl (fun _ => False) machine with
    heap := .define machine.heap machine.current name.lexeme _ }

/-- A variable that exists may change its value. -/
theorem define_of_binds {machine : Machine} {owner : EnvironmentId} {name : Text}
    (bound : machine.heap.binds owner name = true) (value : Value) :
    Follows (fun _ => False) machine
      { machine with heap := machine.heap.define owner name value } :=
  { Follows.refl (fun _ => False) machine with heap := .define_of_binds bound value }

theorem countCall (growing : EnvironmentId → Prop) (machine : Machine) (identity : Nat)
    (arguments : List Value) : Follows growing machine (machine.countCall identity arguments) := by
  refine { Follows.refl growing machine with host := ?_, told := List.suffix_cons _ _ }
  simp only [hostCode, Machine.countCall]
  apply Array.ext
  · simp
  · intro index inside _
    simp only [Array.getElem_map, Array.getElem_modify]
    split <;> rfl

theorem tell (growing : EnvironmentId → Prop) (machine : Machine) (reply : HostReply) :
    Follows growing machine (machine.tell reply) :=
  { Follows.refl growing machine with told := List.suffix_cons _ _ }

/-- After leaving a new environment, nothing is left of it but an environment more. -/
theorem leave {outer : EnvironmentId} {machine : Machine}
    (inside : Follows (· = machine.heap.next) (machine.enter outer) after) :
    Follows (fun _ => False) machine (leaveTo machine.current after) := by
  have entered := Heap.Extends.create (· = machine.heap.next) machine.heap (some outer)
  refine ⟨rfl, inside.depth, inside.limit, inside.host, inside.told, inside.locals, inside.output,
    (entered.trans inside.heap).weaken ?_⟩
  intro environment known fresh
  exact Nat.lt_irrefl _ (fresh ▸ known)

/-- After a call, the number of active calls is what it was. -/
theorem atDepth {machine : Machine} {deeper : Nat}
    (inside : Follows growing { machine with depth := deeper } after) :
    Follows growing machine { after with depth := machine.depth } :=
  ⟨inside.current, rfl, inside.limit, inside.host, inside.told, inside.locals, inside.output,
    inside.heap⟩

theorem bindParameters (parameters : List Token) (arguments : List Value) (machine : Machine) :
    Follows (· = machine.current) machine (bindParameters parameters arguments machine) := by
  induction parameters generalizing arguments machine with
  | nil => exact .refl _ machine
  | cons parameter parameters ih =>
      cases arguments with
      | nil => exact .refl _ machine
      | cons argument arguments =>
          exact (declare machine parameter argument).trans
            (ih arguments (machine.declare parameter argument))

end Follows

/-- The frame of expressions and calls. -/
def steady {α : Type} (machine : Machine) : Post α :=
  .always (Follows (fun _ => False) machine)

/-- The frame of statements that run in an environment. -/
def growing {α : Type} (environment : EnvironmentId) (machine : Machine) : Post α :=
  .always (Follows (· = environment) machine)

theorem follows_andThen {α β : Type} {machine : Machine} {result : Result α}
    {next : α → Machine → Result β} {grows : EnvironmentId → Prop}
    (first : result.Meets (.always (Follows grows machine)))
    (second : ∀ value middle, Follows grows machine middle →
      (next value middle).Meets (.always (Follows grows middle))) :
    (result.andThen next).Meets (.always (Follows grows machine)) := by
  refine first.always_andThen fun value middle follows => ?_
  exact (second value middle follows).imp_always fun after later => follows.trans later

theorem finish_steady (machine : Machine) (token : Token) (value : Except Mishap Value) :
    (machine.finish token value).Meets (steady machine) := by
  cases value <;> exact .refl _ machine

theorem read_steady (machine : Machine) (name : Token) (reference : Option Nat) :
    (machine.read name reference).Meets (steady machine) := by
  unfold read
  split <;> split <;> exact .refl _ machine

theorem assign_steady (machine : Machine) (name : Token) (value : Value)
    (reference : Option Nat) : (machine.assign name value reference).Meets (steady machine) := by
  cases reference with
  | none =>
      simp only [assign]
      cases found : machine.heap.owner? globals name.lexeme with
      | none => exact .refl _ machine
      | some owner =>
          have bound : machine.heap.binds owner name.lexeme = true := by
            simpa using List.find?_some found
          exact .define_of_binds bound value
  | some distance =>
      simp only [assign, Heap.ownerAt]
      cases machine.heap.ancestor? machine.current distance with
      | none => exact .refl _ machine
      | some owner =>
          by_cases bound : machine.heap.binds owner name.lexeme = true
          · simp only [bound, if_true]
            exact .define_of_binds bound value
          · simp only [bound]
            exact .refl _ machine

theorem operate_steady (machine : Machine) (op : BinaryOp) (token : Token) (left right : Value) :
    (machine.operate op token left right).Meets (steady machine) := by
  unfold operate
  split
  · exact .refl _ machine
  · exact finish_steady machine token _

theorem print_steady (machine : Machine) (value : Value) :
    (machine.print value).Meets (steady machine) := by
  unfold print
  split
  · exact .writeLine _ machine _
  · exact .refl _ machine

theorem conclude_steady (machine : Machine) (token : Token) (callee : Value) (reply : HostReply) :
    (machine.conclude token callee reply).Meets (steady machine) := by
  unfold conclude
  split
  · exact .refl _ machine
  · exact finish_steady machine token _
  · exact .refl _ machine

end Machine

namespace Visit

open Machine

/-- The environments to which a piece of work may add variables. -/
def grows (visit : Visit) : EnvironmentId → Prop :=
  match visit.task with
  | .execute _ | .executeAll _ | .interpret _ => (· = visit.machine.current)
  | _ => fun _ => False

/-- However work ends, the machine follows the one on which it started. -/
def frame (visit : Visit) : Post visit.task.Answer :=
  .always (Follows visit.grows visit.machine)

def isCall (visit : Visit) : Bool :=
  match visit.task with
  | .call _ _ _ => true
  | _ => false

/-- Whether a piece of work is the application of a function. -/
def isApplication (visit : Visit) : Bool :=
  match visit.task with
  | .apply _ _ => true
  | _ => false

/-- Only a call goes one level deeper, and only if there is room. -/
structure Leveled (visit next : Visit) : Prop where
  limit : next.machine.callLimit = visit.machine.callLimit
  host : next.machine.hostCode = visit.machine.hostCode
  depth : visit.isCall = false → next.machine.depth = visit.machine.depth
  deeper : visit.isCall = true → visit.machine.depth < visit.machine.callLimit ∧
    next.machine.depth = visit.machine.depth + 1
  applies : next.isApplication = true → visit.isCall = true ∨ visit.isApplication = true

/-- The contract for the work that a given piece of work starts. -/
abbrev level (visit : Visit) : Contract :=
  .of visit.Leveled frame

/-- What is asked of a part of a plan: the frame of the whole piece of work. -/
abbrev framed {α : Type} (visit : Visit) : Post α :=
  .always (Follows visit.grows visit.machine)

section Rules

variable {visit inner : Visit} {α β : Type}

theorem Leveled.of_same (notCall : visit.isCall = false) (plain : inner.isApplication = false)
    (limit : inner.machine.callLimit = visit.machine.callLimit)
    (host : inner.machine.hostCode = visit.machine.hostCode)
    (depth : inner.machine.depth = visit.machine.depth) : visit.Leveled inner where
  limit := limit
  host := host
  depth _ := depth
  deeper isCall := absurd (notCall.symm.trans isCall) Bool.false_ne_true
  applies isApplication := absurd (plain.symm.trans isApplication) Bool.false_ne_true

private theorem frame_start (notCall : visit.isCall = false) (plain : inner.isApplication = false)
    (follows : Follows visit.grows visit.machine inner.machine)
    (narrow : ∀ environment, inner.grows environment → visit.grows environment) :
    (Plan.start inner).Meets visit.level visit.framed :=
  Plan.meets_start ⟨.of_same notCall plain follows.limit follows.host follows.depth, rfl⟩
    fun _ answered =>
    answered.imp_always fun _ later => follows.trans (later.imp narrow)

private theorem frame_evaluate (notCall : visit.isCall = false) {pending : Option Text}
    {machine : Machine} (follows : Follows visit.grows visit.machine machine)
    (expr : ResolvedExpr) : (Plan.evaluate pending machine expr).Meets visit.level visit.framed :=
  frame_start notCall rfl follows fun _ none => none.elim

private theorem frame_evaluateAll (notCall : visit.isCall = false) {pending : Option Text}
    {machine : Machine} (follows : Follows visit.grows visit.machine machine)
    (exprs : List ResolvedExpr) :
    (Plan.evaluateAll pending machine exprs).Meets visit.level visit.framed :=
  frame_start notCall rfl follows fun _ none => none.elim

private theorem frame_execute (notCall : visit.isCall = false) {machine : Machine}
    (grows : visit.grows visit.machine.current)
    (follows : Follows visit.grows visit.machine machine) (stmt : ResolvedStmt) :
    (Plan.execute machine stmt).Meets visit.level visit.framed := by
  refine frame_start notCall rfl follows fun environment here => ?_
  rw [show environment = visit.machine.current from here.trans follows.current]
  exact grows

private theorem frame_executeAll (notCall : visit.isCall = false) {machine : Machine}
    (grows : visit.grows visit.machine.current)
    (follows : Follows visit.grows visit.machine machine) (stmts : List ResolvedStmt) :
    (Plan.executeAll machine stmts).Meets visit.level visit.framed := by
  refine frame_start notCall rfl follows fun environment here => ?_
  rw [show environment = visit.machine.current from here.trans follows.current]
  exact grows

private theorem frame_andThen {plan : Plan α} {next : α → Machine → Plan β}
    (first : plan.Meets visit.level visit.framed)
    (second : ∀ value after, Follows visit.grows visit.machine after →
      (next value after).Meets visit.level visit.framed) :
    (plan.andThen next).Meets visit.level visit.framed :=
  first.andThen second (fun _ _ follows => follows) (fun _ _ follows => follows)

private theorem frame_done {result : Result α} {machine : Machine}
    (met : result.Meets (steady machine))
    (follows : Follows visit.grows visit.machine machine) :
    (Plan.done result).Meets visit.level visit.framed :=
  Result.Meets.imp_always met fun _ later => follows.trans later.weaken

/-- A body in a new environment leaves the environment around it as it was. -/
private theorem frame_planNested (notCall : visit.isCall = false) {machine : Machine}
    (follows : Follows visit.grows visit.machine machine) (body : List ResolvedStmt) :
    (planNested body machine).Meets visit.level visit.framed := by
  have starts : visit.Leveled ⟨.executeAll body, machine.enter machine.current⟩ :=
    .of_same notCall rfl follows.limit follows.host follows.depth
  refine Plan.Meets.map (Plan.meets_start ⟨starts, rfl⟩ fun _ answered => answered)
    fun result ended => ?_
  have left : ∀ after, Follows (· = machine.heap.next) (machine.enter machine.current) after →
      Follows visit.grows visit.machine (leaveTo machine.current after) :=
    fun after inside => follows.trans inside.leave.weaken
  exact Result.Meets.always_ensuring ended left

private theorem frame_planExpr (notCall : visit.isCall = false) (pending : Option Text)
    {machine : Machine} (follows : Follows visit.grows visit.machine machine)
    (expr : ResolvedExpr) : (planExpr pending machine expr).Meets visit.level visit.framed := by
  cases expr with
  | literal token value => exact follows
  | group paren inner => exact frame_evaluate notCall follows inner
  | unary op token operand =>
      refine frame_andThen (frame_evaluate notCall follows operand) fun value after later => ?_
      exact frame_done (finish_steady after token (op.apply value)) later
  | binary op token left right =>
      refine frame_andThen (frame_evaluate notCall follows left) fun leftValue middle first => ?_
      refine frame_andThen (frame_evaluate notCall first right) fun rightValue after later => ?_
      exact frame_done (operate_steady after op token leftValue rightValue) later
  | logical op token left right =>
      refine frame_andThen (frame_evaluate notCall follows left) fun value middle later => ?_
      split
      · exact later
      · exact frame_evaluate notCall later right
  | ident name reference => exact frame_done (read_steady machine name reference) follows
  | assign name reference value =>
      refine frame_andThen (frame_evaluate notCall follows value) fun assigned middle later => ?_
      exact frame_start notCall rfl later fun _ none => none.elim
  | call paren callee arguments =>
      refine frame_andThen (frame_evaluate notCall follows callee) fun function middle first => ?_
      refine frame_andThen (frame_evaluateAll notCall first arguments) fun values after later => ?_
      exact frame_start notCall rfl later fun _ none => none.elim

private theorem frame_hostAction (application : visit.isApplication = true)
    (notCall : visit.isCall = false) (action : HostAction) {machine : Machine}
    (follows : Follows visit.grows visit.machine machine) :
    (action.plan machine).Meets visit.level visit.framed := by
  induction action generalizing machine with
  | answer reply => exact follows
  | apply callee arguments next ih =>
      have starts : visit.Leveled ⟨.apply callee arguments, machine⟩ :=
        { limit := follows.limit, host := follows.host, depth := fun _ => follows.depth
          deeper := fun isCall => absurd (notCall.symm.trans isCall) Bool.false_ne_true
          applies := fun _ => .inr application }
      refine frame_andThen (Plan.meets_start ⟨starts, rfl⟩ fun _ answered =>
        answered.imp_always fun _ later => follows.trans later.weaken) fun reply after later => ?_
      exact ih _ _ (later.trans (.tell _ after reply))

private theorem frame_planApply (application : visit.isApplication = true)
    (notCall : visit.isCall = false) (callee : Value) (arguments : List Value) {machine : Machine}
    (follows : Follows visit.grows visit.machine machine) :
    (planApply arguments machine callee).Meets visit.level visit.framed := by
  cases callee with
  | nil | bool | number | string | foreign => exact follows
  | function closure =>
      simp only [planApply]
      split
      · exact follows
      · have bound := Follows.bindParameters closure.parameters arguments
          (machine.enter closure.scope)
        generalize bindParameters closure.parameters arguments (machine.enter closure.scope) =
          entered at bound
        have starts : visit.Leveled ⟨.executeAll closure.body, entered⟩ :=
          .of_same notCall rfl (bound.limit.trans follows.limit) (bound.host.trans follows.host)
            (bound.depth.trans follows.depth)
        have left : ∀ after, Follows (· = entered.current) entered after →
            Follows visit.grows visit.machine (leaveTo machine.current after) := by
          intro after inside
          rw [bound.current] at inside
          exact follows.trans (bound.trans inside).leave.weaken
        have body : ((Plan.executeAll entered closure.body).andThen fun completion after =>
            .done (.ok completion.value after)).Meets visit.level
              (growing entered.current entered) :=
          .andThen (Plan.meets_start ⟨starts, rfl⟩ fun _ answered => answered)
            (fun _ _ inside => inside) (fun _ _ inside => inside) (fun _ _ inside => inside)
        exact body.map fun result ended => Result.Meets.always_ensuring ended.always_reply left
  | native reference =>
      simp only [planApply]
      split
      · exact follows
      · exact frame_hostAction application notCall _
          (follows.trans (.countCall _ machine reference.identity arguments))

private theorem frame_planStmt (notCall : visit.isCall = false)
    (grows : visit.grows visit.machine.current) {machine : Machine}
    (follows : Follows visit.grows visit.machine machine) (stmt : ResolvedStmt) :
    (planStmt machine stmt).Meets visit.level visit.framed := by
  have adding : ∀ {after}, Follows visit.grows visit.machine after →
      ∀ environment, environment = after.current → visit.grows environment := by
    rintro after later environment rfl
    rw [later.current]
    exact grows
  cases stmt with
  | expression token value =>
      exact frame_andThen (frame_evaluate notCall follows value) fun _ _ later => later
  | print keyword value =>
      refine frame_andThen (frame_evaluate notCall follows value) fun value after later => ?_
      refine frame_done ?_ later
      exact follows_andThen (print_steady after value) fun _ written _ => .refl _ written
  | declare name initializer =>
      cases initializer with
      | none => exact follows.trans ((Follows.declare machine name .nil).imp (adding follows))
      | some initializer =>
          refine frame_andThen (frame_evaluate notCall follows initializer)
            fun value after later => ?_
          exact later.trans ((Follows.declare after name value).imp (adding later))
  | block brace body => exact frame_planNested notCall follows body
  | ifThen keyword test consequent =>
      refine frame_andThen (frame_evaluate notCall follows test) fun value after later => ?_
      split
      · exact frame_execute notCall grows later consequent
      · exact later
  | ifElse keyword test consequent alternative =>
      refine frame_andThen (frame_evaluate notCall follows test) fun value after later => ?_
      split
      · exact frame_execute notCall grows later consequent
      · exact frame_execute notCall grows later alternative
  | loop keyword test body =>
      refine frame_andThen (frame_evaluate notCall follows test) fun value middle first => ?_
      split
      · refine frame_andThen (frame_planNested notCall first [body]) fun completion after later => ?_
        cases completion with
        | returned value => exact later
        | normal => exact frame_execute notCall grows later (.loop keyword test body)
      · exact first
  | function name parameters body =>
      exact follows.trans
        ((Follows.declareFunction machine name parameters body).imp (adding follows))
  | giveBack keyword value =>
      cases value with
      | none => exact follows
      | some value =>
          exact frame_andThen (frame_evaluate notCall follows value) fun _ _ later => later

private theorem frame_ofProgram (notCall : visit.isCall = false)
    (grows : visit.grows visit.machine.current) (program : List ResolvedStmt) {machine : Machine}
    (follows : Follows visit.grows visit.machine machine) :
    (Plan.ofProgram program machine).Meets visit.level visit.framed := by
  induction program generalizing machine with
  | nil => exact follows
  | cons first rest ih =>
      exact frame_andThen (frame_execute notCall grows follows first) fun _ _ later => ih later

end Rules

private theorem frame_planCall (paren : Token) (callee : Value) (arguments : List Value)
    (machine : Machine) :
    (planCall paren callee arguments machine).Meets (level ⟨.call paren callee arguments, machine⟩)
      (steady machine) := by
  unfold planCall
  split
  · exact .refl _ machine
  split
  · exact .refl _ machine
  split
  · exact .refl _ machine
  · rename_i room
    have starts : (⟨.call paren callee arguments, machine⟩ : Visit).Leveled
        ⟨.apply callee arguments, { machine with depth := machine.depth + 1 }⟩ :=
      { limit := rfl, host := rfl, depth := nofun, applies := fun _ => .inl rfl
        deeper := fun _ => ⟨Nat.lt_of_not_le room, rfl⟩ }
    have concluded : ((Plan.apply { machine with depth := machine.depth + 1 } callee
        arguments).andThen fun reply after => .done (after.conclude paren callee reply)).Meets
          (level ⟨.call paren callee arguments, machine⟩)
          (steady { machine with depth := machine.depth + 1 }) := by
      refine Plan.Meets.andThen (Plan.meets_start ⟨starts, rfl⟩ fun _ answered => answered)
        (fun reply after follows => ?_) (fun _ _ follows => follows) (fun _ _ follows => follows)
      exact (conclude_steady after paren callee reply).imp_always fun _ => follows.trans
    exact concluded.map fun result ended => ended.always_ensuring fun _ => Follows.atDepth

/-- What a piece of work asks for is on its level or one level deeper, and it keeps its frame. -/
theorem plan_leveled (visit : Visit) : visit.plan.Meets visit.level visit.frame := by
  obtain ⟨task, machine⟩ := visit
  cases task with
  | evaluate pending expr => exact frame_planExpr rfl pending (.refl _ machine) expr
  | evaluateAll pending exprs =>
      cases exprs with
      | nil => exact .refl _ machine
      | cons first rest =>
          refine frame_andThen (frame_evaluate rfl (.refl _ machine) first)
            fun value middle follows => ?_
          exact frame_andThen (frame_evaluateAll rfl follows rest) fun values after later => later
  | assign pending name reference value => exact assign_steady machine name value reference
  | call paren callee arguments => exact frame_planCall paren callee arguments machine
  | apply callee arguments => exact frame_planApply rfl rfl callee arguments (.refl _ machine)
  | execute stmt =>
      have here : grows ⟨.execute stmt, machine⟩ machine.current := rfl
      exact frame_planStmt rfl here (.refl _ machine) stmt
  | executeAll stmts =>
      cases stmts with
      | nil => exact .refl _ machine
      | cons first rest =>
          have here : grows ⟨.executeAll (first :: rest), machine⟩ machine.current := rfl
          refine frame_andThen (frame_execute rfl here (.refl _ machine) first)
            fun completion after follows => ?_
          cases completion with
          | returned value => exact follows
          | normal => exact frame_executeAll rfl here follows rest
  | interpret program =>
      have here : grows ⟨.interpret program, machine⟩ machine.current := rfl
      exact frame_ofProgram rfl here program (.refl _ machine)

/-- All work keeps its frame. -/
theorem run_frame (visit : Visit) (fuel : Nat) : (visit.run fuel).Meets visit.frame := by
  have kept : Contract.Kept (.of (fun _ => True) frame) := by
    rintro visit _ ⟨_, rfl⟩
    exact visit.plan_leveled.weaken fun _ _ starts => ⟨trivial, starts.2⟩
  exact kept.run fuel ⟨trivial, rfl⟩

theorem Starts.leveled {visit next : Visit} (starts : visit.Starts next) : visit.Leveled next := by
  obtain ⟨_, leveled, _⟩ := visit.plan_leveled.asks
    (fun fuel other _ framed => framed.2 ▸ other.run_frame fuel) starts
  exact leveled

end Visit

namespace Machine

variable (fuel : Nat) (machine : Machine)

theorem evaluate_steady (expr : ResolvedExpr) :
    (evaluate fuel expr machine).Meets (steady machine) :=
  Visit.run_frame ⟨.evaluate none expr, machine⟩ fuel

theorem evaluateAll_steady (exprs : List ResolvedExpr) :
    (evaluateAll fuel exprs machine).Meets (steady machine) :=
  Visit.run_frame ⟨.evaluateAll none exprs, machine⟩ fuel

theorem call_steady (paren : Token) (callee : Value) (arguments : List Value) :
    (call fuel paren callee arguments machine).Meets (steady machine) :=
  Visit.run_frame ⟨.call paren callee arguments, machine⟩ fuel

theorem apply_steady (callee : Value) (arguments : List Value) :
    (apply fuel callee arguments machine).Meets (steady machine) :=
  Visit.run_frame ⟨.apply callee arguments, machine⟩ fuel

theorem perform_steady (action : HostAction) :
    (action.perform (apply fuel) machine).Meets (steady machine) := by
  induction action generalizing machine with
  | answer reply => exact .refl _ machine
  | apply callee arguments next ih =>
      refine follows_andThen (apply_steady fuel machine callee arguments) fun reply after _ => ?_
      exact (ih _ reply (after.tell reply)).imp_always fun _ later =>
        (Follows.tell _ after reply).trans later

theorem execute_growing (stmt : ResolvedStmt) :
    (execute fuel stmt machine).Meets (growing machine.current machine) :=
  Visit.run_frame ⟨.execute stmt, machine⟩ fuel

theorem interpret_growing (program : List ResolvedStmt) :
    (interpret fuel program machine).Meets (growing machine.current machine) :=
  Visit.run_frame ⟨.interpret program, machine⟩ (fuel + 1)

theorem executeAll_growing (stmts : List ResolvedStmt) :
    (executeAll fuel stmts machine).Meets (growing machine.current machine) :=
  Visit.run_frame ⟨.executeAll stmts, machine⟩ fuel

theorem nested_steady (body : List ResolvedStmt) :
    ((executeAll fuel body (machine.enter machine.current)).ensuring
      (leaveTo machine.current)).Meets (steady machine) :=
  (executeAll_growing fuel (machine.enter machine.current) body).always_ensuring
    fun _ inside => inside.leave

end Machine

end Loxley
