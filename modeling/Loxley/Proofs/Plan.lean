import Mathlib.Logic.Relation
import Loxley.Machine.Eval

/-!
# Pieces of work

The evaluator splits its work into pieces, each on the machine as it then is. The plan of a piece
says which other pieces it asks for, one after the other, and what it makes of their results. The
evaluator follows these plans: with fuel for one more step, a piece of work ends as its plan does.

So what holds of all work is shown by looking at plans. Work that starts as a contract wants it ends
as the contract says, if the plan of every piece keeps to the contract. Work is visited by a run if a
chain of pieces, each asked for by the one before, leads to it. Nothing else matters for the run.
-/

set_option autoImplicit false

namespace Loxley

/-- What is asked of a computation: of its value, its error or its fault, and of the machine then. -/
structure Post (α : Type) where
  ok : α → Machine → Prop
  error : RuntimeError → Machine → Prop
  fault : Fault → Machine → Prop

/-- Asks something of the machine only, however the computation ends. -/
def Post.always {α : Type} (holds : Machine → Prop) : Post α where
  ok _ := holds
  error _ := holds
  fault _ := holds

def Post.and {α : Type} (first second : Post α) : Post α where
  ok value machine := first.ok value machine ∧ second.ok value machine
  error problem machine := first.error problem machine ∧ second.error problem machine
  fault reason machine := first.fault reason machine ∧ second.fault reason machine

namespace Result

variable {α β : Type}

/-- A computation that runs out of fuel meets everything. -/
def Meets (post : Post α) : Result α → Prop
  | .ok value machine => post.ok value machine
  | .error problem machine => post.error problem machine
  | .fault reason machine => post.fault reason machine
  | .exhausted => True

theorem Meets.imp {weak strong : Post α} {result : Result α} (met : result.Meets strong)
    (ok : ∀ value machine, strong.ok value machine → weak.ok value machine)
    (error : ∀ problem machine, strong.error problem machine → weak.error problem machine)
    (fault : ∀ reason machine, strong.fault reason machine → weak.fault reason machine) :
    result.Meets weak := by
  cases result with
  | ok value machine => exact ok value machine met
  | error problem machine => exact error problem machine met
  | fault reason machine => exact fault reason machine met
  | exhausted => trivial

theorem meets_and_iff (result : Result α) (first second : Post α) :
    result.Meets (first.and second) ↔ result.Meets first ∧ result.Meets second := by
  cases result <;> simp [Meets, Post.and]

theorem Meets.imp_always {weak strong : Machine → Prop} {result : Result α}
    (met : result.Meets (.always strong)) (implies : ∀ machine, strong machine → weak machine) :
    result.Meets (.always weak) :=
  met.imp (fun _ => implies) (fun _ => implies) (fun _ => implies)

theorem meets_andThen_iff (result : Result α) (next : α → Machine → Result β) (post : Post β) :
    (result.andThen next).Meets post ↔
      result.Meets ⟨fun value machine => (next value machine).Meets post, post.error, post.fault⟩ := by
  cases result <;> rfl

theorem meets_ensuring_iff (result : Result α) (change : Machine → Machine) (post : Post α) :
    (result.ensuring change).Meets post ↔
      result.Meets
        ⟨fun value machine => post.ok value (change machine),
          fun problem machine => post.error problem (change machine),
          fun reason machine => post.fault reason (change machine)⟩ := by
  cases result <;> rfl

theorem meets_reply_iff (result : Result Value) (post : Post HostReply) :
    result.reply.Meets post ↔
      result.Meets
        ⟨fun value machine => post.ok { value } machine,
          fun problem machine =>
            post.ok { error := some { text := problem.text, cause := some problem } } machine,
          post.fault⟩ := by
  cases result <;> rfl

theorem Meets.always_andThen {holds : Machine → Prop} {result : Result α}
    {next : α → Machine → Result β} (met : result.Meets (.always holds))
    (goesOn : ∀ value machine, holds machine → (next value machine).Meets (.always holds)) :
    (result.andThen next).Meets (.always holds) := by
  rw [meets_andThen_iff]
  exact met.imp goesOn (fun _ _ => id) (fun _ _ => id)

theorem Meets.always_ensuring {weak strong : Machine → Prop} {result : Result α}
    {change : Machine → Machine} (met : result.Meets (.always strong))
    (changes : ∀ machine, strong machine → weak (change machine)) :
    (result.ensuring change).Meets (.always weak) := by
  rw [meets_ensuring_iff]
  exact met.imp_always changes

theorem Meets.always_reply {holds : Machine → Prop} {result : Result Value}
    (met : result.Meets (.always holds)) : result.reply.Meets (.always holds) := by
  rw [meets_reply_iff]
  exact met

end Result

/-- A piece of work for the evaluator. -/
inductive Task where
  /-- Evaluating an expression, in the initializer of the given local variable if there is one. -/
  | evaluate (initializing : Option Text) (expr : ResolvedExpr)
  | evaluateAll (initializing : Option Text) (exprs : List ResolvedExpr)
  /-- Storing the value of an assignment. -/
  | assign (initializing : Option Text) (name : Token) (reference : Option Nat) (value : Value)
  | call (paren : Token) (callee : Value) (arguments : List Value)
  | apply (callee : Value) (arguments : List Value)
  | execute (stmt : ResolvedStmt)
  | executeAll (stmts : List ResolvedStmt)
  | interpret (program : List ResolvedStmt)

abbrev Task.Answer : Task → Type
  | .evaluate _ _ | .assign _ _ _ _ | .call _ _ _ => Value
  | .evaluateAll _ _ => List Value
  | .apply _ _ => HostReply
  | .execute _ | .executeAll _ => Completion
  | .interpret _ => Unit

/-- A piece of work and the machine on which it starts. -/
structure Visit where
  task : Task
  machine : Machine

/-- The local variable of a declaration. At the top level it is a global one. -/
def Machine.initializing (machine : Machine) (name : Token) : Option Text :=
  if machine.current = Machine.globals then none else some name.lexeme

/--
Does a piece of work with some fuel. An assignment and a program take no fuel of their own; here they
take a step like all other work.
-/
def Visit.run (fuel : Nat) : (visit : Visit) → Result visit.task.Answer
  | ⟨.evaluate _ expr, machine⟩ => Machine.evaluate fuel expr machine
  | ⟨.evaluateAll _ exprs, machine⟩ => Machine.evaluateAll fuel exprs machine
  | ⟨.assign _ name reference value, machine⟩ =>
    match fuel with
    | 0 => .exhausted
    | _ + 1 => machine.assign name value reference
  | ⟨.call paren callee arguments, machine⟩ => Machine.call fuel paren callee arguments machine
  | ⟨.apply callee arguments, machine⟩ => Machine.apply fuel callee arguments machine
  | ⟨.execute stmt, machine⟩ => Machine.execute fuel stmt machine
  | ⟨.executeAll stmts, machine⟩ => Machine.executeAll fuel stmts machine
  | ⟨.interpret program, machine⟩ =>
    match fuel with
    | 0 => .exhausted
    | fuel + 1 => Machine.interpret fuel program machine

/-- Work that ends, or asks for a piece of work and goes on from its result. -/
inductive Plan (α : Type) where
  | done (result : Result α)
  | ask (visit : Visit) (next : Result visit.task.Answer → Plan α)

namespace Plan

variable {α β : Type}

/-- Follows a plan, given how the work that it asks for is done. -/
def follow (does : (visit : Visit) → Result visit.task.Answer) : Plan α → Result α
  | .done result => result
  | .ask visit next =>
    match does visit with
    | .exhausted => .exhausted
    | result => (next result).follow does

def start (visit : Visit) : Plan visit.task.Answer :=
  .ask visit .done

section Asking

/-! The plans that ask for one piece of work and end as it does. -/

variable (pending : Option Text) (machine : Machine)

def evaluate (expr : ResolvedExpr) : Plan Value :=
  start ⟨.evaluate pending expr, machine⟩

def evaluateAll (exprs : List ResolvedExpr) : Plan (List Value) :=
  start ⟨.evaluateAll pending exprs, machine⟩

def assign (name : Token) (reference : Option Nat) (value : Value) : Plan Value :=
  start ⟨.assign pending name reference value, machine⟩

def call (paren : Token) (callee : Value) (arguments : List Value) : Plan Value :=
  start ⟨.call paren callee arguments, machine⟩

def apply (callee : Value) (arguments : List Value) : Plan HostReply :=
  start ⟨.apply callee arguments, machine⟩

def execute (stmt : ResolvedStmt) : Plan Completion :=
  start ⟨.execute stmt, machine⟩

def executeAll (stmts : List ResolvedStmt) : Plan Completion :=
  start ⟨.executeAll stmts, machine⟩

end Asking

def bind (next : Result α → Plan β) : Plan α → Plan β
  | .done result => next result
  | .ask visit rest => .ask visit fun result => (rest result).bind next

def andThen (plan : Plan α) (next : α → Machine → Plan β) : Plan β :=
  plan.bind fun
    | .ok value machine => next value machine
    | .error problem machine => .done (.error problem machine)
    | .fault reason machine => .done (.fault reason machine)
    | .exhausted => .done .exhausted

def map (change : Result α → Result β) (plan : Plan α) : Plan β :=
  plan.bind fun result => .done (change result)

section Following

variable {does : (visit : Visit) → Result visit.task.Answer}

@[simp] theorem follow_done (result : Result α) : (done result).follow does = result := rfl

theorem follow_ask {visit : Visit} {next : Result visit.task.Answer → Plan α}
    (ends : does visit ≠ .exhausted) :
    (ask visit next).follow does = (next (does visit)).follow does := by
  simp only [follow]

theorem follow_ask_of_exhausted {visit : Visit} {next : Result visit.task.Answer → Plan α}
    (exhausted : does visit = .exhausted) : (ask visit next).follow does = .exhausted := by
  rw [follow, exhausted]

private theorem follow_start (visit : Visit) : (start visit).follow does = does visit := by
  by_cases exhausted : does visit = .exhausted
  · rw [start, follow_ask_of_exhausted exhausted, exhausted]
  · rw [start, follow_ask exhausted, follow_done]

section Asking

variable (pending : Option Text) (machine : Machine)

@[simp] theorem follow_evaluate (expr : ResolvedExpr) :
    (evaluate pending machine expr).follow does = does ⟨.evaluate pending expr, machine⟩ :=
  follow_start _

@[simp] theorem follow_evaluateAll (exprs : List ResolvedExpr) :
    (evaluateAll pending machine exprs).follow does = does ⟨.evaluateAll pending exprs, machine⟩ :=
  follow_start _

@[simp] theorem follow_assign (name : Token) (reference : Option Nat) (value : Value) :
    (assign pending machine name reference value).follow does =
      does ⟨.assign pending name reference value, machine⟩ :=
  follow_start _

@[simp] theorem follow_call (paren : Token) (callee : Value) (arguments : List Value) :
    (call machine paren callee arguments).follow does =
      does ⟨.call paren callee arguments, machine⟩ :=
  follow_start _

@[simp] theorem follow_apply (callee : Value) (arguments : List Value) :
    (apply machine callee arguments).follow does = does ⟨.apply callee arguments, machine⟩ :=
  follow_start _

@[simp] theorem follow_execute (stmt : ResolvedStmt) :
    (execute machine stmt).follow does = does ⟨.execute stmt, machine⟩ :=
  follow_start _

@[simp] theorem follow_executeAll (stmts : List ResolvedStmt) :
    (executeAll machine stmts).follow does = does ⟨.executeAll stmts, machine⟩ :=
  follow_start _

end Asking

theorem follow_bind {next : Result α → Plan β}
    (strict : (next .exhausted).follow does = .exhausted) (plan : Plan α) :
    (plan.bind next).follow does = (next (plan.follow does)).follow does := by
  induction plan with
  | done result => rfl
  | ask visit rest ih =>
      by_cases exhausted : does visit = .exhausted
      · rw [bind, follow_ask_of_exhausted exhausted, follow_ask_of_exhausted exhausted, strict]
      · rw [bind, follow_ask exhausted, follow_ask exhausted, ih]

@[simp] theorem follow_andThen (plan : Plan α) (next : α → Machine → Plan β) :
    (plan.andThen next).follow does =
      (plan.follow does).andThen fun value machine => (next value machine).follow does := by
  rw [andThen, follow_bind rfl]
  cases plan.follow does <;> rfl

theorem follow_map {change : Result α → Result β} (strict : change .exhausted = .exhausted)
    (plan : Plan α) : (plan.map change).follow does = change (plan.follow does) := by
  rw [map, follow_bind, follow_done]
  exact strict

end Following

end Plan

/-- What a host function asks for. -/
def HostAction.plan : HostAction → Machine → Plan HostReply
  | .answer reply, machine => .done (.ok reply machine)
  | .apply callee arguments next, machine =>
    (Plan.apply machine callee arguments).andThen fun reply machine =>
    (next (machine.tell reply).told reply).plan (machine.tell reply)

/-- The plan of a program: its statements one after the other, up to the first error. -/
def Plan.ofProgram : List ResolvedStmt → Machine → Plan Unit
  | [], machine => .done (.ok () machine)
  | first :: rest, machine =>
    (Plan.execute machine first).andThen fun _ machine => ofProgram rest machine

namespace Visit

open Machine

/-- The plan of a body that runs in a new environment inside the current one. -/
def planNested (body : List ResolvedStmt) (machine : Machine) : Plan Completion :=
  (Plan.executeAll (machine.enter machine.current) body).map
    (Result.ensuring · (leaveTo machine.current))

def planExpr (pending : Option Text) (machine : Machine) : ResolvedExpr → Plan Value
  | .literal _ value => .done (.ok (.ofLiteral value) machine)
  | .group _ inner => .evaluate pending machine inner
  | .unary op token operand =>
    (Plan.evaluate pending machine operand).andThen fun value machine =>
    .done (machine.finish token (op.apply value))
  | .binary op token left right =>
    (Plan.evaluate pending machine left).andThen fun leftValue machine =>
    (Plan.evaluate pending machine right).andThen fun rightValue machine =>
    .done (machine.operate op token leftValue rightValue)
  | .logical op _ left right =>
    (Plan.evaluate pending machine left).andThen fun value machine =>
    if op.isDecidedBy value then .done (.ok value machine)
    else .evaluate pending machine right
  | .ident name reference => .done (machine.read name reference)
  | .assign name reference value =>
    (Plan.evaluate pending machine value).andThen fun value machine =>
    .assign pending machine name reference value
  | .call paren callee arguments =>
    (Plan.evaluate pending machine callee).andThen fun callee machine =>
    (Plan.evaluateAll pending machine arguments).andThen fun arguments machine =>
    .call machine paren callee arguments

def planCall (paren : Token) (callee : Value) (arguments : List Value) (machine : Machine) :
    Plan Value :=
  match callee.arity? with
  | none => .done (.error { token := paren, mishap := .notCallable } machine)
  | some arity =>
    if (arguments.length : Int) ≠ arity then
      .done (.error { token := paren, mishap := .wrongArity arity arguments.length } machine)
    else if machine.callLimit ≤ machine.depth then
      .done (.error { token := paren, mishap := .callsTooDeep } machine)
    else
      ((Plan.apply { machine with depth := machine.depth + 1 } callee arguments).andThen
        fun reply after => .done (after.conclude paren callee reply)).map
          (Result.ensuring · fun after => { after with depth := machine.depth })

def planApply (arguments : List Value) (machine : Machine) : Value → Plan HostReply
  | .function closure =>
    if arguments.length < closure.parameters.length then .done (.fault .badApplication machine)
    else
      ((Plan.executeAll
          (bindParameters closure.parameters arguments (machine.enter closure.scope))
          closure.body).andThen
        fun completion after => .done (.ok completion.value after)).map
          (·.reply.ensuring (leaveTo machine.current))
  | .native reference =>
    match machine.natives[reference.identity]? with
    | none => .done (.fault .badApplication machine)
    | some native =>
      (native.act native.calls machine.told arguments).plan
        (machine.countCall reference.identity arguments)
  | _ => .done (.fault .badApplication machine)

def planStmt (machine : Machine) : ResolvedStmt → Plan Completion
  | .expression _ value =>
    (Plan.evaluate none machine value).andThen fun _ machine =>
    .done (.ok .normal machine)
  | .print _ value =>
    (Plan.evaluate none machine value).andThen fun value machine =>
    .done ((machine.print value).andThen fun _ machine => .ok .normal machine)
  | .declare name none => .done (.ok .normal (machine.declare name .nil))
  | .declare name (some initializer) =>
    (Plan.evaluate (machine.initializing name) machine initializer).andThen
      fun value machine => .done (.ok .normal (machine.declare name value))
  | .block _ body => planNested body machine
  | .ifThen _ test consequent =>
    (Plan.evaluate none machine test).andThen fun value machine =>
    if value.isTruthy then .execute machine consequent else .done (.ok .normal machine)
  | .ifElse _ test consequent alternative =>
    (Plan.evaluate none machine test).andThen fun value machine =>
    if value.isTruthy then .execute machine consequent
    else .execute machine alternative
  | .loop keyword test body =>
    (Plan.evaluate none machine test).andThen fun value machine =>
    if value.isTruthy then
      (planNested [body] machine).andThen fun completion machine =>
        match completion with
        | .returned value => .done (.ok (.returned value) machine)
        | .normal => .execute machine (.loop keyword test body)
    else .done (.ok .normal machine)
  | .function name parameters body =>
    .done (.ok .normal (machine.declareFunction name parameters body))
  | .giveBack _ none => .done (.ok (.returned .nil) machine)
  | .giveBack _ (some value) =>
    (Plan.evaluate none machine value).andThen fun value machine =>
    .done (.ok (.returned value) machine)

/-- What a piece of work asks for, and what it makes of the results. -/
def plan : (visit : Visit) → Plan visit.task.Answer
  | ⟨.evaluate pending expr, machine⟩ => planExpr pending machine expr
  | ⟨.evaluateAll _ [], machine⟩ => .done (.ok [] machine)
  | ⟨.evaluateAll pending (first :: rest), machine⟩ =>
    (Plan.evaluate pending machine first).andThen fun value machine =>
    (Plan.evaluateAll pending machine rest).andThen fun values machine =>
    .done (.ok (value :: values) machine)
  | ⟨.assign _ name reference value, machine⟩ => .done (machine.assign name value reference)
  | ⟨.call paren callee arguments, machine⟩ => planCall paren callee arguments machine
  | ⟨.apply callee arguments, machine⟩ => planApply arguments machine callee
  | ⟨.execute stmt, machine⟩ => planStmt machine stmt
  | ⟨.executeAll [], machine⟩ => .done (.ok .normal machine)
  | ⟨.executeAll (first :: rest), machine⟩ =>
    (Plan.execute machine first).andThen fun completion machine =>
      match completion with
      | .returned value => .done (.ok (.returned value) machine)
      | .normal => .executeAll machine rest
  | ⟨.interpret program, machine⟩ => .ofProgram program machine

@[simp] theorem run_zero (visit : Visit) : visit.run 0 = .exhausted := by
  obtain ⟨task, machine⟩ := visit
  cases task <;> rfl

end Visit

/-! ## The evaluator follows the plans -/

theorem HostAction.follow_plan (does : (visit : Visit) → Result visit.task.Answer)
    (action : HostAction) (machine : Machine) :
    (action.plan machine).follow does =
      action.perform (fun callee arguments machine => does ⟨.apply callee arguments, machine⟩)
        machine := by
  induction action generalizing machine with
  | answer reply => rfl
  | apply callee arguments next ih => simp [plan, perform, ih]

theorem Plan.follow_ofProgram (fuel : Nat) (program : List ResolvedStmt) (machine : Machine) :
    (ofProgram program machine).follow (Visit.run fuel) =
      Machine.interpret fuel program machine := by
  induction program generalizing machine with
  | nil => rfl
  | cons first rest ih => simp [ofProgram, Machine.interpret, ih, Visit.run]

namespace Visit

open Machine

variable (fuel : Nat) (machine : Machine)

theorem follow_planNested (body : List ResolvedStmt) :
    (planNested body machine).follow (run fuel) =
      (Machine.executeAll fuel body (machine.enter machine.current)).ensuring
        (leaveTo machine.current) := by
  rw [planNested, Plan.follow_map rfl, Plan.follow_executeAll]
  rfl

private theorem follow_planExpr (pending : Option Text) (expr : ResolvedExpr) :
    (planExpr pending machine expr).follow (run fuel) = Machine.evaluate (fuel + 1) expr machine := by
  cases expr with
  | literal | ident => rfl
  | group | unary | binary | call => simp [planExpr, Machine.evaluate, run]
  | logical op token left right =>
      simp [planExpr, Machine.evaluate, run, apply_ite (Plan.follow (run fuel))]
  | assign name reference value =>
      -- Without fuel not even the value is evaluated, so nothing is stored.
      cases fuel with
      | zero => rfl
      | succ fuel => simp [planExpr, Machine.evaluate, run]

private theorem follow_planCall (paren : Token) (callee : Value) (arguments : List Value) :
    (planCall paren callee arguments machine).follow (run fuel) =
      Machine.call (fuel + 1) paren callee arguments machine := by
  simp only [planCall, Machine.call]
  cases callee.arity? with
  | none => rfl
  | some arity =>
      simp only [apply_ite (Plan.follow (run fuel)), Plan.follow_done]
      rw [Plan.follow_map rfl]
      simp [run]

private theorem follow_planApply (callee : Value) (arguments : List Value) :
    (planApply arguments machine callee).follow (run fuel) =
      Machine.apply (fuel + 1) callee arguments machine := by
  cases callee with
  | nil | bool | number | string | foreign => rfl
  | function closure =>
      simp only [planApply, Machine.apply, apply_ite (Plan.follow (run fuel)), Plan.follow_done]
      rw [Plan.follow_map rfl]
      simp [run]
  | native reference =>
      simp only [planApply, Machine.apply]
      cases machine.natives[reference.identity]? with
      | none => rfl
      | some native => exact HostAction.follow_plan _ _ _

private theorem follow_planStmt (stmt : ResolvedStmt) :
    (planStmt machine stmt).follow (run fuel) = Machine.execute (fuel + 1) stmt machine := by
  cases stmt with
  | expression | print => simp [planStmt, Machine.execute, run]
  | declare name initializer =>
      cases initializer with
      | none => rfl
      | some initializer => simp [planStmt, Machine.execute, run]
  | block brace body => exact follow_planNested fuel machine body
  | ifThen | ifElse =>
      simp [planStmt, Machine.execute, run, apply_ite (Plan.follow (run fuel))]
  | loop keyword test body =>
      simp only [planStmt, Machine.execute, Plan.follow_andThen, Plan.follow_evaluate, run,
        apply_ite (Plan.follow (run fuel)), Plan.follow_done, follow_planNested]
      congr
      funext value middle
      congr
      funext completion after
      cases completion with
      | returned value => rfl
      | normal => simp [run]
  | function => rfl
  | giveBack keyword value =>
      cases value with
      | none => rfl
      | some value => simp [planStmt, Machine.execute, run]

/-- With fuel for one more step, every piece of work ends as its plan does. -/
theorem run_succ (visit : Visit) : visit.run (fuel + 1) = visit.plan.follow (run fuel) := by
  obtain ⟨task, machine⟩ := visit
  cases task with
  | evaluate pending expr => exact (follow_planExpr fuel machine pending expr).symm
  | evaluateAll pending exprs =>
      cases exprs with
      | nil => rfl
      | cons first rest => simp [plan, run, Machine.evaluateAll]
  | assign pending name reference value => rfl
  | call paren callee arguments => exact (follow_planCall fuel machine paren callee arguments).symm
  | apply callee arguments => exact (follow_planApply fuel machine callee arguments).symm
  | execute stmt => exact (follow_planStmt fuel machine stmt).symm
  | executeAll stmts =>
      cases stmts with
      | nil => rfl
      | cons first rest =>
          simp only [plan, run, Machine.executeAll, Plan.follow_andThen, Plan.follow_execute]
          congr
          funext completion after
          cases completion with
          | returned value => rfl
          | normal => simp [run]
  | interpret program => exact (Plan.follow_ofProgram fuel program machine).symm

end Visit

/-! ## Visits -/

/-- A plan asks for a piece of work, after the pieces before have ended as they do. -/
inductive Plan.Asks {α : Type} : Plan α → Visit → Prop
  | here {visit : Visit} {next : Result visit.task.Answer → Plan α} : Asks (.ask visit next) visit
  | later {visit other : Visit} {next : Result visit.task.Answer → Plan α} (fuel : Nat)
      (ends : visit.run fuel ≠ .exhausted) (asks : Asks (next (visit.run fuel)) other) :
      Asks (.ask visit next) other

/-- One piece of work starts another one in its course. -/
def Visit.Starts (visit next : Visit) : Prop :=
  visit.plan.Asks next

/-- A piece of work leads to another one, through any number of pieces in between. -/
abbrev Visit.Reaches : Visit → Visit → Prop :=
  Relation.ReflTransGen Visit.Starts

/-! ## Contracts -/

/-- Which work may start, and with what end in view. -/
abbrev Contract := (visit : Visit) → Post visit.task.Answer → Prop

/-- The contract in which every piece of work has one end in view. -/
def Contract.of (before : Visit → Prop) (after : (visit : Visit) → Post visit.task.Answer) :
    Contract :=
  fun visit post => before visit ∧ post = after visit

namespace Plan

variable {α β : Type} {contract other : Contract}

/--
The plan asks only for work that may start, and ends as it should, provided that this work ends as
the contract says.
-/
def Meets (contract : Contract) (post : Post α) : Plan α → Prop
  | .done result => result.Meets post
  | .ask visit next =>
    ∃ wanted, contract visit wanted ∧
      ∀ result, result.Meets wanted → (next result).Meets contract post

variable {plan : Plan α} {post middle : Post α} {wanted : Post β}

theorem meets_start {visit : Visit} {wanted post : Post visit.task.Answer}
    (starts : contract visit wanted)
    (ends : ∀ result : Result visit.task.Answer, result.Meets wanted → result.Meets post) :
    (start visit).Meets contract post :=
  ⟨wanted, starts, ends⟩

namespace Meets

theorem bind {next : Result α → Plan β} (met : plan.Meets contract middle)
    (continues : ∀ result, result.Meets middle → (next result).Meets contract wanted) :
    (plan.bind next).Meets contract wanted := by
  induction plan with
  | done result => exact continues result met
  | ask visit rest ih =>
      obtain ⟨ends, starts, goesOn⟩ := met
      exact ⟨ends, starts, fun result answered => ih result (goesOn result answered)⟩

theorem map {change : Result α → Result β} (met : plan.Meets contract middle)
    (changed : ∀ result, result.Meets middle → (change result).Meets wanted) :
    (plan.map change).Meets contract wanted :=
  met.bind changed

theorem andThen {next : α → Machine → Plan β} (met : plan.Meets contract middle)
    (ok : ∀ value machine, middle.ok value machine → (next value machine).Meets contract wanted)
    (error : ∀ problem machine, middle.error problem machine → wanted.error problem machine)
    (fault : ∀ reason machine, middle.fault reason machine → wanted.fault reason machine) :
    (plan.andThen next).Meets contract wanted := by
  refine met.bind fun result answered => ?_
  cases result with
  | ok value machine => exact ok value machine answered
  | error problem machine => exact error problem machine answered
  | fault reason machine => exact fault reason machine answered
  | exhausted => trivial

theorem imp {weaker : Post α} (met : plan.Meets contract post)
    (implies : ∀ result, Result.Meets post result → Result.Meets weaker result) :
    plan.Meets contract weaker := by
  induction plan with
  | done result => exact implies result met
  | ask visit rest ih =>
      obtain ⟨ends, starts, goesOn⟩ := met
      exact ⟨ends, starts, fun result answered => ih result (goesOn result answered)⟩

/-- The same under a contract that lets more work start. -/
theorem weaken (met : plan.Meets contract post)
    (wider : ∀ visit ends, contract visit ends → other visit ends) : plan.Meets other post := by
  induction plan with
  | done result => exact met
  | ask visit rest ih =>
      obtain ⟨ends, starts, goesOn⟩ := met
      exact ⟨ends, wider visit ends starts, fun result answered => ih result (goesOn result answered)⟩

/-- What is known under a contract that promises less can be added. -/
theorem and {added : Post α} (met : plan.Meets contract post) (also : plan.Meets other added)
    (promises : ∀ visit ends weaker, contract visit ends → other visit weaker →
      ∀ result, Result.Meets ends result → Result.Meets weaker result) :
    plan.Meets contract (post.and added) := by
  induction plan with
  | done result => exact (result.meets_and_iff post added).mpr ⟨met, also⟩
  | ask visit rest ih =>
      obtain ⟨ends, starts, goesOn⟩ := met
      obtain ⟨weaker, startsToo, goesOnToo⟩ := also
      refine ⟨ends, starts, fun result answered => ih result (goesOn result answered) ?_⟩
      exact goesOnToo result (promises visit ends weaker starts startsToo result answered)

theorem follow {fuel : Nat} (met : plan.Meets contract post)
    (done : ∀ visit ends, plan.Asks visit → contract visit ends → (visit.run fuel).Meets ends) :
    (plan.follow (Visit.run fuel)).Meets post := by
  induction plan with
  | done result => exact met
  | ask visit rest ih =>
      obtain ⟨ends, starts, goesOn⟩ := met
      by_cases exhausted : visit.run fuel = .exhausted
      · rw [follow_ask_of_exhausted exhausted]
        trivial
      · rw [follow_ask exhausted]
        exact ih _ (goesOn _ (done visit ends .here starts)) fun other ends asks =>
          done other ends (.later fuel exhausted asks)

end Meets

end Plan

/-- Every piece of work that may start keeps to the contract, provided that all other work does. -/
def Contract.Kept (contract : Contract) : Prop :=
  ∀ visit post, contract visit post → visit.plan.Meets contract post

/-- So all work keeps to the contract, by induction on the fuel. -/
theorem Contract.Kept.run {contract : Contract} (kept : contract.Kept) (fuel : Nat)
    {visit : Visit} {post : Post visit.task.Answer} (starts : contract visit post) :
    (visit.run fuel).Meets post := by
  induction fuel generalizing visit with
  | zero =>
      rw [Visit.run_zero]
      trivial
  | succ fuel ih =>
      rw [Visit.run_succ]
      exact (kept visit post starts).follow fun _ _ _ => ih

theorem Plan.Meets.asks {α : Type} {contract : Contract} {plan : Plan α} {post : Post α}
    (met : plan.Meets contract post)
    (done : ∀ fuel visit ends, contract visit ends → (visit.run fuel).Meets ends)
    {visit : Visit} (asks : plan.Asks visit) : ∃ ends, contract visit ends := by
  induction asks with
  | here =>
      obtain ⟨ends, starts, _⟩ := met
      exact ⟨ends, starts⟩
  | later fuel _ _ ih =>
      obtain ⟨ends, starts, goesOn⟩ := met
      exact ih (goesOn _ (done fuel _ ends starts))

/-- Work that may start leads only to work that may start. -/
theorem Contract.Kept.reaches {contract : Contract} (kept : contract.Kept) {visit other : Visit}
    (starts : ∃ post, contract visit post) (reached : visit.Reaches other) :
    ∃ post, contract other post := by
  induction reached with
  | refl => exact starts
  | tail _ asks ih =>
      obtain ⟨post, may⟩ := ih
      exact (kept _ post may).asks (fun fuel _ _ => kept.run fuel) asks

theorem Plan.follow_eq_of_asks {α : Type} {does : (visit : Visit) → Result visit.task.Answer}
    {fuel : Nat} (plan : Plan α) (same : ∀ visit, plan.Asks visit → does visit = visit.run fuel) :
    plan.follow does = plan.follow (Visit.run fuel) := by
  induction plan with
  | done result => rfl
  | ask visit next ih =>
      have here := same visit .here
      by_cases exhausted : visit.run fuel = .exhausted
      · rw [follow_ask_of_exhausted (here.trans exhausted), follow_ask_of_exhausted exhausted]
      · have ends : does visit ≠ .exhausted := here ▸ exhausted
        rw [follow_ask ends, follow_ask exhausted, here]
        exact ih _ fun other asks => same other (.later fuel exhausted asks)

/--
All the work of a run is reached: whoever follows the plans of what is reached does the same as the
evaluator, whatever becomes of other work.
-/
theorem Visit.run_eq_of_reaches {start : Visit}
    {does : Nat → (visit : Visit) → Result visit.task.Answer}
    (zero : ∀ visit, start.Reaches visit → does 0 visit = .exhausted)
    (succ : ∀ fuel visit, start.Reaches visit →
      does (fuel + 1) visit = visit.plan.follow (does fuel)) (fuel : Nat) :
    does fuel start = start.run fuel := by
  have reached : ∀ visit, start.Reaches visit → does fuel visit = visit.run fuel := by
    induction fuel with
    | zero => exact fun visit reached => (zero visit reached).trans visit.run_zero.symm
    | succ fuel ih =>
        intro visit reached
        rw [succ fuel visit reached, Visit.run_succ]
        exact visit.plan.follow_eq_of_asks fun other asks => ih other (reached.tail asks)
  exact reached start .refl

end Loxley
