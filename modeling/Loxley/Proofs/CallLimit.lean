import Loxley.Proofs.Likeness
import Loxley.Proofs.SessionSteps

/-!
# The limit of active calls

A lower limit cuts runs short, and changes nothing else about them. Under two limits a run does the
same up to the call that goes too deep for the lower one. The error of that call ends the run, for
nothing in the language handles errors, and the host functions pass them on. So the other run has
printed at least as much.
-/

set_option autoImplicit false

namespace Loxley

/-- An action that ends with the error of any function that it applies. -/
inductive HostAction.PassesErrors : HostAction → Prop
  | answer (reply : HostReply) : PassesErrors (.answer reply)
  | apply {callee : Value} {arguments : List Value}
      {next : List HostEvent → HostReply → HostAction}
      (fails : ∀ told reply error, reply.error = some error →
        ∃ value, next told reply = .answer { value, error := some error })
      (goesOn : ∀ told reply, reply.error = none → PassesErrors (next told reply)) :
      PassesErrors (.apply callee arguments next)

/-- A host function that keeps no error of a function from the program. -/
def Native.PassesErrors (native : Native) : Prop :=
  ∀ calls told arguments, (native.act calls told arguments).PassesErrors

/-- Host functions that call nothing back, such as the clock. -/
def Native.CallsNothing (native : Native) : Prop :=
  ∀ calls told arguments, ∃ reply, native.act calls told arguments = .answer reply

theorem Native.CallsNothing.passesErrors {native : Native} (quiet : native.CallsNothing) :
    native.PassesErrors := by
  intro calls told arguments
  obtain ⟨reply, acts⟩ := quiet calls told arguments
  exact acts ▸ .answer reply

theorem Machine.clock_callsNothing (readings : Nat → Float) : (clock readings).CallsNothing :=
  fun _ _ _ => ⟨_, rfl⟩

namespace Machine

theorem exists_native_of_hostCode {before after : Machine}
    (same : after.hostCode = before.hostCode) {native : Native} (member : native ∈ after.natives) :
    ∃ other ∈ before.natives, other.act = native.act := by
  have listed : (native.name, native.act) ∈ before.hostCode :=
    same ▸ Array.mem_map_of_mem member
  obtain ⟨other, held, sameCode⟩ := Array.mem_map.mp listed
  exact ⟨other, held, congrArg Prod.snd sameCode⟩

/-- The same machine under another limit. -/
def withLimit (limit : Nat) (machine : Machine) : Machine :=
  { machine with callLimit := limit }

theorem setCallLimit_eq_withLimit {limit : Int} (positive : 1 ≤ limit) :
    setCallLimit limit = withLimit limit.toNat := by
  funext machine
  simp only [setCallLimit, withLimit, if_neg (Int.not_lt.mpr positive)]

section Alignment

variable {lower higher : Nat} {α β : Type}

/-- How a computation ends under a lower limit, and how it ends without it. -/
inductive Cut (lower : Nat) : Result α → Result α → Prop
  | ok (value : α) (machine : Machine) :
      Cut lower (.ok value (machine.withLimit lower)) (.ok value machine)
  | error (problem : RuntimeError) (machine : Machine) :
      Cut lower (.error problem (machine.withLimit lower)) (.error problem machine)
  | fault (reason : Fault) (machine : Machine) :
      Cut lower (.fault reason (machine.withLimit lower)) (.fault reason machine)
  | exhausted : Cut lower .exhausted .exhausted
  /-- Only under the lower limit did a call go too deep. -/
  | short {problem : RuntimeError} {machine : Machine} {full : Result α}
      (tooDeep : problem.mishap = .callsTooDeep)
      (printed : full.Meets (.always fun after => machine.output.toList <+: after.output.toList)) :
      Cut lower (.error problem machine) full

/-- Under a limit, on a host that passes errors on, with everything still there that was printed. -/
structure Prints (limit : Nat) (printed : Array Text) (after : Machine) : Prop where
  limit : after.callLimit = limit
  output : printed.toList <+: after.output.toList
  host : ∀ native ∈ after.natives, native.PassesErrors

theorem Prints.follow {printed : Array Text} {before after : Machine}
    (prints : Prints higher printed before) {grows : EnvironmentId → Prop}
    (follows : Follows grows before after) : Prints higher printed after where
  limit := follows.limit.trans prints.limit
  output := prints.output.trans follows.output
  host native member := by
    obtain ⟨other, held, same⟩ := exists_native_of_hostCode follows.host member
    exact fun calls told arguments => same ▸ prints.host other held calls told arguments

/-- Two computations that start on one machine, but for the limit, after what had been printed. -/
structure Aligned (lower higher : Nat) (printed : Array Text) (result full : Result α) : Prop where
  cut : Cut lower result full
  prints : full.Meets (.always (Prints higher printed))

namespace Aligned

variable {printed : Array Text} {machine : Machine} {result full : Result α}

theorem ok (value : α) (prints : Prints higher printed machine) :
    Aligned lower higher printed (.ok value (machine.withLimit lower)) (.ok value machine) :=
  ⟨.ok value machine, prints⟩

theorem error (problem : RuntimeError) (prints : Prints higher printed machine) :
    Aligned lower higher printed (.error problem (machine.withLimit lower) : Result α)
      (.error problem machine) :=
  ⟨.error problem machine, prints⟩

theorem fault (reason : Fault) (prints : Prints higher printed machine) :
    Aligned lower higher printed (.fault reason (machine.withLimit lower) : Result α)
      (.fault reason machine) :=
  ⟨.fault reason machine, prints⟩

theorem earlier {earlier : Array Text} (aligned : Aligned lower higher printed result full)
    (fewer : earlier.toList <+: printed.toList) : Aligned lower higher earlier result full :=
  ⟨aligned.cut, aligned.prints.imp_always fun _ prints =>
    { prints with output := fewer.trans prints.output }⟩

theorem andThen {next follow : α → Machine → Result β}
    (first : Aligned lower higher printed result full)
    (second : ∀ later value middle, printed.toList <+: later.toList → Prints higher later middle →
      Aligned lower higher later (next value (middle.withLimit lower)) (follow value middle)) :
    Aligned lower higher printed (result.andThen next) (full.andThen follow) := by
  obtain ⟨cut, prints⟩ := first
  -- Without the lower limit, what follows prints more, even where it runs alone.
  have continues : ∀ value middle, Prints higher printed middle →
      Aligned lower higher middle.output (next value (middle.withLimit lower))
        (follow value middle) :=
    fun value middle prints =>
      second middle.output value middle prints.output { prints with output := List.prefix_rfl }
  constructor
  · cases cut with
    | ok value machine => exact (continues value machine prints).cut
    | error problem machine => exact .error problem machine
    | fault reason machine => exact .fault reason machine
    | exhausted => exact .exhausted
    | @short problem machine _ tooDeep shorter =>
        refine .short tooDeep ?_
        rw [Result.meets_andThen_iff]
        cases full with
        | ok value middle =>
            exact (continues value middle prints).prints.imp_always
              fun _ later => List.IsPrefix.trans shorter later.output
        | error | fault => exact shorter
        | exhausted => trivial
  · refine prints.always_andThen fun value middle printed => ?_
    exact (continues value middle printed).prints.imp_always
      fun _ later => { later with output := printed.output.trans later.output }

theorem ensuring {change : Machine → Machine} (aligned : Aligned lower higher printed result full)
    (commutes : ∀ machine, change (machine.withLimit lower) = (change machine).withLimit lower)
    (silent : ∀ machine, (change machine).output = machine.output)
    (kept : ∀ machine, Prints higher printed machine → Prints higher printed (change machine)) :
    Aligned lower higher printed (result.ensuring change) (full.ensuring change) := by
  obtain ⟨cut, prints⟩ := aligned
  constructor
  · cases cut with
    | ok value machine =>
        simp only [Result.ensuring, commutes]
        exact .ok value _
    | error problem machine =>
        simp only [Result.ensuring, commutes]
        exact .error problem _
    | fault reason machine =>
        simp only [Result.ensuring, commutes]
        exact .fault reason _
    | exhausted => exact .exhausted
    | @short problem machine _ tooDeep shorter =>
        refine .short tooDeep (shorter.always_ensuring fun after shorter => ?_)
        rwa [silent, silent]
  · exact prints.always_ensuring kept

end Aligned

/-- The same of an application, after which the host is left with the error of the cut. -/
inductive CutReply (lower : Nat) : Result HostReply → Result HostReply → Prop
  | same {result full : Result HostReply} (cut : Cut lower result full) : CutReply lower result full
  | short {value : Value} {text : Text} {problem : RuntimeError} {machine : Machine}
      {full : Result HostReply} (tooDeep : problem.mishap = .callsTooDeep)
      (printed : full.Meets (.always fun after => machine.output.toList <+: after.output.toList)) :
      CutReply lower (.ok { value, error := some { text, cause := some problem } } machine) full

structure AlignedReply (lower higher : Nat) (printed : Array Text) (result full : Result HostReply) :
    Prop where
  cut : CutReply lower result full
  prints : full.Meets (.always (Prints higher printed))

section Operations

variable {printed : Array Text} {machine : Machine}

theorem read_aligned (prints : Prints higher printed machine) (name : Token)
    (reference : Option Nat) :
    Aligned lower higher printed ((machine.withLimit lower).read name reference)
      (machine.read name reference) := by
  cases reference with
  | none =>
      simp only [read, withLimit]
      cases machine.heap.get? globals name.lexeme with
      | none => exact .error _ prints
      | some value => exact .ok value prints
  | some distance =>
      simp only [read, withLimit]
      cases machine.heap.getAt machine.current distance name.lexeme with
      | error reason => exact .fault reason prints
      | ok found =>
          cases found with
          | none => exact .error _ prints
          | some value => exact .ok value prints

theorem assign_aligned (prints : Prints higher printed machine) (name : Token) (value : Value)
    (reference : Option Nat) :
    Aligned lower higher printed ((machine.withLimit lower).assign name value reference)
      (machine.assign name value reference) := by
  have stored : ∀ owner, Prints higher printed
      { machine with heap := machine.heap.define owner name.lexeme value } :=
    fun owner => { prints with }
  cases reference with
  | none =>
      simp only [assign, withLimit]
      cases machine.heap.owner? globals name.lexeme with
      | none => exact .error _ prints
      | some owner => exact .ok value (stored owner)
  | some distance =>
      simp only [assign, withLimit]
      cases machine.heap.ownerAt machine.current distance name.lexeme with
      | error reason => exact .fault reason prints
      | ok found =>
          cases found with
          | none => exact .error _ prints
          | some owner => exact .ok value (stored owner)

theorem conclude_aligned (prints : Prints higher printed machine) (paren : Token) (callee : Value)
    (reply : HostReply) :
    Aligned lower higher printed ((machine.withLimit lower).conclude paren callee reply)
      (machine.conclude paren callee reply) := by
  obtain ⟨value, error⟩ := reply
  cases error with
  | some error => exact .error _ prints
  | none =>
      cases callee with
      | nil | bool | number | string | function | foreign => exact .ok value prints
      | native reference =>
          have sameName : (machine.withLimit lower).nativeName (.native reference) =
              machine.nativeName (.native reference) := rfl
          simp only [conclude, sameName]
          cases value.ofHost (machine.nativeName (.native reference)) with
          | ok given => exact .ok given prints
          | error mishap => exact .error _ prints

/-- A call ends with the error that its function left to the host. -/
theorem AlignedReply.conclude {result full : Result HostReply}
    (aligned : AlignedReply lower higher printed result full) (paren : Token) (callee : Value) :
    Aligned lower higher printed
      (result.andThen fun reply after => after.conclude paren callee reply)
      (full.andThen fun reply after => after.conclude paren callee reply) := by
  obtain ⟨cut, prints⟩ := aligned
  cases cut with
  | same cut =>
      exact Aligned.andThen ⟨cut, prints⟩ fun later reply middle _ prints =>
        conclude_aligned prints paren callee reply
  | @short value text problem machine _ tooDeep shorter =>
      have concluded : ∀ reply (after : Machine),
          (after.conclude paren callee reply).Meets (.always (Follows (fun _ => False) after)) :=
        fun reply after => conclude_steady after paren callee reply
      refine ⟨.short tooDeep ?_, ?_⟩
      · exact shorter.always_andThen fun reply after shorter =>
          (concluded reply after).imp_always fun _ follows => shorter.trans follows.output
      · exact prints.always_andThen fun reply after prints =>
          (concluded reply after).imp_always fun _ follows => prints.follow follows

theorem Aligned.reply {result full : Result Value}
    (aligned : Aligned lower higher printed result full) (environment : EnvironmentId) :
    AlignedReply lower higher printed (result.reply.ensuring (leaveTo environment))
      (full.reply.ensuring (leaveTo environment)) := by
  obtain ⟨cut, prints⟩ := aligned
  constructor
  · cases cut with
    | ok value machine => exact .same (.ok _ (leaveTo environment machine))
    | error problem machine => exact .same (.ok _ (leaveTo environment machine))
    | fault reason machine => exact .same (.fault reason (leaveTo environment machine))
    | exhausted => exact .same .exhausted
    | @short problem machine _ tooDeep shorter =>
        exact .short tooDeep (shorter.always_reply.always_ensuring fun _ shorter => shorter)
  · exact prints.always_reply.always_ensuring fun _ prints => { prints with }

/-- What goes on after an application must pass its error on. -/
theorem AlignedReply.andThen {result full : Result HostReply}
    {next : HostReply → Machine → Result HostReply}
    (first : AlignedReply lower higher printed result full)
    (second : ∀ reply middle, Prints higher printed middle →
      AlignedReply lower higher printed (next reply (middle.withLimit lower)) (next reply middle))
    (steadily : ∀ reply middle, (next reply middle).Meets (steady middle))
    (fails : ∀ reply error middle, reply.error = some error →
      ∃ value after, next reply middle = .ok { value, error := some error } after ∧
        after.output = middle.output) :
    AlignedReply lower higher printed (result.andThen next) (full.andThen next) := by
  obtain ⟨cut, prints⟩ := first
  have longer : ∀ {output : Array Text},
      full.Meets (.always fun after => output.toList <+: after.output.toList) →
      (full.andThen next).Meets (.always fun after => output.toList <+: after.output.toList) :=
    fun shorter => shorter.always_andThen fun reply after shorter =>
      (steadily reply after).imp_always fun _ follows => shorter.trans follows.output
  constructor
  · cases cut with
    | same cut =>
        cases cut with
        | ok reply middle => exact (second reply middle prints).cut
        | error problem middle => exact .same (.error problem middle)
        | fault reason middle => exact .same (.fault reason middle)
        | exhausted => exact .same .exhausted
        | short tooDeep shorter => exact .same (.short tooDeep (longer shorter))
    | @short value text problem middle _ tooDeep shorter =>
        obtain ⟨_, after, ended, silent⟩ :=
          fails { value, error := some { text, cause := some problem } } _ middle rfl
        rw [Result.andThen, ended]
        exact .short tooDeep (silent ▸ longer shorter)
  · exact prints.always_andThen fun reply after prints =>
      (steadily reply after).imp_always fun _ follows => prints.follow follows

/-- A host function that passes errors on ends with the error of the cut. -/
theorem perform_aligned {fuel : Nat} {action : HostAction} (passes : action.PassesErrors)
    (applies : ∀ middle callee arguments, Prints higher printed middle →
      AlignedReply lower higher printed (apply fuel callee arguments (middle.withLimit lower))
        (apply fuel callee arguments middle))
    (prints : Prints higher printed machine) :
    AlignedReply lower higher printed (action.perform (apply fuel) (machine.withLimit lower))
      (action.perform (apply fuel) machine) := by
  induction passes generalizing machine with
  | answer reply => exact ⟨.same (.ok reply machine), prints⟩
  | @apply callee arguments next fails goesOn ih =>
      refine (applies machine callee arguments prints).andThen ?_ ?_ ?_
      · intro reply middle ended
        have told : Prints higher printed (middle.tell reply) := { ended with }
        cases failed : reply.error with
        | none => exact ih (middle.tell reply).told reply failed told
        | some error =>
            obtain ⟨value, answers⟩ := fails (middle.tell reply).told reply error failed
            have same : ((middle.withLimit lower).tell reply).told = (middle.tell reply).told := rfl
            rw [same, answers]
            exact ⟨.same (.ok _ (middle.tell reply)), told⟩
      · intro reply middle
        exact (perform_steady fuel _ _).imp_always fun _ later =>
          (Follows.tell _ middle reply).trans later
      · intro reply error middle failed
        obtain ⟨value, answers⟩ := fails (middle.tell reply).told reply error failed
        exact ⟨value, middle.tell reply, by rw [answers]; rfl, rfl⟩

theorem native_aligned {fuel : Nat} (prints : Prints higher printed machine)
    (reference : NativeRef) (arguments : List Value)
    (applies : ∀ middle callee arguments, Prints higher printed middle →
      AlignedReply lower higher printed (apply fuel callee arguments (middle.withLimit lower))
        (apply fuel callee arguments middle)) :
    AlignedReply lower higher printed
      (apply (fuel + 1) (.native reference) arguments (machine.withLimit lower))
      (apply (fuel + 1) (.native reference) arguments machine) := by
  have sameNatives : (machine.withLimit lower).natives = machine.natives := rfl
  simp only [apply, sameNatives]
  cases found : machine.natives[reference.identity]? with
  | none => exact ⟨.same (.fault _ machine), prints⟩
  | some native =>
      have passes := prints.host native (Array.mem_of_getElem? found) native.calls machine.told
        arguments
      have counted : Prints higher printed (machine.countCall reference.identity arguments) :=
        prints.follow (.countCall (fun _ => False) machine reference.identity arguments)
      exact perform_aligned passes applies counted

end Operations

end Alignment

/-- The evaluator under two limits. Only where a call finds no room do they make a difference. -/
def limiting {lower higher : Nat} (ordered : lower ≤ higher) : Correspondence where
  World := Array Text
  Place := Unit
  Later printed later := printed.toList <+: later.toList
  code := .none
  admits _ _ := True
  values _ := Eq
  scopes _ _ := Eq
  machines printed _ machine other := machine = other.withLimit lower ∧ Prints higher printed other
  admits_inner _ := trivial
  grow _ same := same
  similar := by
    rintro _ value _ rfl
    exact value.similar_self
  literal _ _ := rfl
  closure := by
    rintro _ closure _ rfl
    refine ⟨(), closure.scope, ?_, rfl, fun _ _ => trivial⟩
    rw [Closure.adapt_of_fixes Adaptation.none_fixes trivial]
  writeLine := by
    rintro printed _ _ other text ⟨rfl, prints⟩
    exact ⟨rfl, prints.follow (.writeLine (fun _ => False) other text)⟩
  declare := by
    rintro printed _ _ other name renamed value _ ⟨rfl, prints⟩ sameName rfl
    refine ⟨?_, { prints with }⟩
    simp only [declare, withLimit, sameName]
  declareFunction := by
    rintro printed _ _ other name parameters body ⟨rfl, prints⟩ _
    rw [Stmt.adaptAll_of_fixes Adaptation.none_fixes trivial]
    simp only [Adaptation.none, id, List.map_id]
    exact ⟨rfl, { prints with }⟩
  current := by
    rintro _ _ _ _ ⟨rfl, _⟩
    rfl
  enter := by
    rintro printed _ _ other _ environment _ ⟨rfl, prints⟩ rfl
    exact ⟨printed, List.prefix_rfl, rfl, { prints with }⟩
  results printed _ := Aligned lower higher printed
  replies printed _ := AlignedReply lower higher printed
  ok := by
    rintro α _ printed _ _ other value content ⟨rfl, prints⟩ alike
    obtain rfl : value = content := by rwa [Holder.alike_eq] at alike
    exact .ok value prints
  error := by
    rintro α _ printed _ _ other token mishap ⟨rfl, prints⟩ _
    exact .error _ prints
  fault := by
    rintro α _ printed _ _ other reason ⟨rfl, prints⟩
    exact .fault reason prints
  exhausted := ⟨.exhausted, trivial⟩
  andThen first second := first.andThen fun later value middle grown prints =>
    second later value value _ middle grown (by rw [Holder.alike_eq]) ⟨rfl, prints⟩
  leave := by
    rintro α _ printed later _ _ environment _ result full grown aligned rfl
    exact (aligned.earlier grown).ensuring (fun _ => rfl) (fun _ => rfl)
      fun _ prints => { prints with }
  read := by
    rintro printed _ _ other name reference ⟨rfl, prints⟩ _
    exact read_aligned prints name reference
  assign := by
    rintro printed _ _ other name value _ reference ⟨rfl, prints⟩ _ rfl
    exact assign_aligned prints name value reference
  room := by
    rintro printed _ _ other ⟨rfl, prints⟩ room
    exact Nat.lt_of_lt_of_le room (prints.limit ▸ ordered)
  deeper := by
    rintro printed _ _ other ⟨rfl, prints⟩
    exact ⟨rfl, { prints with }⟩
  tooDeep := by
    rintro printed _ _ other paren callee arguments fuel ⟨rfl, prints⟩ _ _ _
    have called := call_steady (fuel + 1) other paren callee arguments
    exact ⟨.short rfl (called.imp_always fun _ follows => follows.output),
      called.imp_always fun _ follows => prints.follow follows⟩
  conclude := by
    rintro printed _ _ other paren callee _ result full ⟨rfl, _⟩ _ rfl aligned
    exact (aligned.conclude paren callee).ensuring (fun _ => rfl) (fun _ => rfl)
      fun _ prints => { prints with }
  noReply := ⟨.same .exhausted, trivial⟩
  badApplication := by
    rintro printed _ _ other ⟨rfl, prints⟩
    exact ⟨.same (.fault _ other), prints⟩
  reply := by
    rintro printed later _ _ environment _ result full grown aligned rfl
    exact (aligned.earlier grown).reply environment
  native := by
    rintro printed _ _ other reference arguments contents fuel ⟨rfl, prints⟩ alike applies
    obtain rfl : arguments = contents := by rwa [List.forall₂_eq_eq_eq] at alike
    exact native_aligned prints reference arguments fun middle callee arguments prints =>
      applies printed _ middle callee callee arguments arguments List.prefix_rfl ⟨rfl, prints⟩ rfl
        (by rw [List.forall₂_eq_eq_eq])

theorem interpret_aligned {lower higher : Nat} (ordered : lower ≤ higher) {printed : Array Text}
    {machine : Machine} (prints : Prints higher printed machine) (fuel : Nat)
    (program : List ResolvedStmt) :
    Aligned lower higher printed (interpret fuel program (machine.withLimit lower))
      (interpret fuel program machine) := by
  have aligned : Aligned lower higher printed (interpret fuel program (machine.withLimit lower))
      (interpret fuel (Stmt.adaptAll .none () program) machine) :=
    (limiting ordered).interpret fuel (fun _ _ => trivial) ⟨rfl, prints⟩
  rwa [Stmt.adaptAll_of_fixes Adaptation.none_fixes trivial] at aligned

end Machine

/-- Changes the machine of the session that an outcome leaves. -/
def Outcome.onMachine {α : Type} (change : Machine → Machine) : Outcome α → Outcome α
  | .done value session => .done value (session.onMachine change)
  | .fault reason session => .fault reason (session.onMachine change)
  | .exhausted => .exhausted

theorem Outcome.onMachine_eq_done {α : Type} {change : Machine → Machine} (outcome : Outcome α)
    {value : α} {after : Session} (ended : outcome.onMachine change = .done value after) :
    ∃ kept, outcome = .done value kept ∧ kept.onMachine change = after := by
  cases outcome with
  | done _ kept =>
      cases ended
      exact ⟨kept, rfl, rfl⟩
  | fault | exhausted => cases ended

namespace Session

open Machine

section OnMachine

variable (change : Machine → Machine) (session : Session)

theorem hadError_onMachine : (session.onMachine change).hadError = session.hadError := rfl

theorem log_onMachine (text : Text) :
    (session.onMachine change).log text = (session.log text).onMachine change := by
  cases verbose : session.verbose <;> simp [log, onMachine, writeError, verbose]

theorem reportAll_onMachine (found : List Diagnostic) :
    (session.onMachine change).reportAll found = (session.reportAll found).onMachine change := by
  induction found generalizing session with
  | nil => rfl
  | cons first rest ih => exact ih (session.report first)

theorem parse_onMachine (source : Text) :
    (session.onMachine change).parse source = (session.parse source).onMachine change := by
  simp only [parse, log_onMachine, reportAll_onMachine]
  split
  · rfl
  · simp only [hadError_onMachine, Outcome.onMachine, apply_ite (onMachine change)]
    rfl

/-- Checking a source has nothing to do with the machine. -/
theorem check_onMachine (source : Text) :
    (session.onMachine change).check source = (session.check source).onMachine change := by
  simp only [check, parse_onMachine]
  cases session.parse source with
  | fault reason parsed => rfl
  | exhausted => rfl
  | done program parsed =>
      simp only [Outcome.andThen, apply_ite (Outcome.onMachine change)]
      simp only [Outcome.onMachine, log_onMachine, reportAll_onMachine, hadError_onMachine]

end OnMachine

/-- A run that ended in one more error, that of a call that went too deep. -/
def Overflows (session after : Session) : Prop :=
  ∃ problem : RuntimeError, problem.mishap = .callsTooDeep ∧
    after.runtimeErrors = session.runtimeErrors ++ [problem]

/-- How a run ends under a lower limit, and how it ends under a higher one. -/
inductive Cut (lower higher : Nat) (session : Session) (result full : Outcome Unit) : Prop
  | same (result_eq : result = full.onMachine (withLimit lower))
      (full_eq : full = full.onMachine (withLimit higher))
  | short (cut : Session) (result_eq : result = .done () cut) (overflows : session.Overflows cut)
      (printed : ∀ after, full.session? = some after →
        cut.machine.output.toList <+: after.machine.output.toList)

theorem execute_cut {lower higher : Nat} (ordered : lower ≤ higher) (fuel : Nat)
    (program : List ResolvedStmt) {session : Session}
    (host : ∀ native ∈ session.machine.natives, native.PassesErrors) :
    session.Cut lower higher ((session.onMachine (withLimit lower)).execute fuel program)
      ((session.onMachine (withLimit higher)).execute fuel program) := by
  have start : Prints higher session.machine.output (session.machine.withLimit higher) :=
    ⟨rfl, List.prefix_rfl, host⟩
  obtain ⟨cut, prints⟩ := interpret_aligned ordered start fuel program
  simp only [execute, onMachine]
  have atStart : (session.machine.withLimit higher).withLimit lower =
      session.machine.withLimit lower := rfl
  rw [atStart] at cut
  generalize interpret fuel program (session.machine.withLimit lower) = result at cut
  generalize interpret fuel program (session.machine.withLimit higher) = full at cut prints
  cases cut with
  | ok _ machine | error problem machine | fault reason machine =>
      refine .same rfl ?_
      obtain ⟨rfl, _, _⟩ := prints
      rfl
  | exhausted => exact .same rfl rfl
  | @short problem machine _ tooDeep printed =>
      refine .short _ rfl ⟨problem, tooDeep, rfl⟩ fun after left => ?_
      cases full with
      | ok | error | fault =>
          cases left
          exact printed
      | exhausted => cases left

theorem run_cut {lower higher : Nat} (ordered : lower ≤ higher) (fuel : Nat) (source : Text)
    {session : Session} (host : ∀ native ∈ session.machine.natives, native.PassesErrors) :
    session.Cut lower higher ((session.onMachine (withLimit lower)).run fuel source)
      ((session.onMachine (withLimit higher)).run fuel source) := by
  simp only [run, check_onMachine]
  cases ended : session.check source with
  | exhausted => exact .same rfl rfl
  | fault reason checked => exact .same rfl rfl
  | done program checked =>
      cases program with
      | none => exact .same rfl rfl
      | some program =>
          cases program with
          | nil => exact .same rfl rfl
          | cons first rest =>
              obtain ⟨_, resembles, _⟩ := accepts_of_check ended
              have hosted : ∀ native ∈ ((checked.log "Executing...").onMachine
                  (Machine.resolve (first :: rest))).machine.natives, native.PassesErrors := by
                simpa [onMachine, Machine.resolve, resembles.machine] using host
              have cut := execute_cut ordered fuel (first :: rest) hosted
              simp only [Outcome.onMachine, Outcome.andThen, log_onMachine]
              cases cut with
              | same result_eq full_eq => exact .same result_eq full_eq
              | short cut result_eq overflows printed =>
                  refine .short cut result_eq ?_ printed
                  rwa [Overflows, onMachine, log_runtimeErrors, resembles.runtimeErrors] at overflows

end Session

namespace Visit

open Machine

/-- If the host calls nothing back, then the application of a function starts no other one. -/
theorem planApply_quiet {machine : Machine} (callee : Value) (arguments : List Value)
    (quiet : ∀ native ∈ machine.natives, native.CallsNothing) :
    (planApply arguments machine callee).Meets
      (.of (·.isApplication = false) fun _ => .always fun _ => True) (.always fun _ => True) := by
  cases callee with
  | nil | bool | number | string | foreign => trivial
  | function closure =>
      simp only [planApply]
      split
      · trivial
      · have body : ((Plan.executeAll (bindParameters closure.parameters arguments
            (machine.enter closure.scope)) closure.body).andThen fun completion after =>
              .done (.ok completion.value after)).Meets
                (.of (·.isApplication = false) fun _ => .always fun _ => True)
                (.always fun _ => True) :=
          .andThen (Plan.meets_start ⟨rfl, rfl⟩ fun _ met => met) (fun _ _ => id) (fun _ _ => id)
            (fun _ _ => id)
        refine body.map fun result _ => ?_
        cases result <;> trivial
  | native reference =>
      simp only [planApply]
      split
      · trivial
      · next native found =>
          obtain ⟨reply, acts⟩ := quiet native (Array.mem_of_getElem? found) native.calls
            machine.told arguments
          rw [acts]
          trivial

/-- So only calls start applications. -/
theorem Starts.not_isApplication {visit next : Visit} (starts : visit.Starts next)
    (quiet : ∀ native ∈ visit.machine.natives, native.CallsNothing)
    (notCall : visit.isCall = false) : next.isApplication = false := by
  refine Bool.eq_false_iff.mpr fun application => ?_
  obtain isCall | applies := starts.leveled.applies application
  · cases notCall.symm.trans isCall
  · obtain ⟨task, machine⟩ := visit
    cases task with
    | apply callee arguments =>
        obtain ⟨_, plain, _⟩ := (planApply_quiet callee arguments quiet).asks
          (fun fuel other _ starts => starts.2 ▸ by cases other.run fuel <;> trivial) starts
        cases plain.symm.trans application
    | evaluate | evaluateAll | assign | call | execute | executeAll | interpret => cases applies

/-- So the calls that are active at any moment do not exceed the limit. -/
theorem applications_le {visit : Visit} {path : List Visit}
    (chain : List.IsChain Starts (visit :: path))
    (quiet : ∀ native ∈ visit.machine.natives, native.CallsNothing)
    (within : visit.machine.depth ≤ visit.machine.callLimit) :
    visit.machine.depth + path.countP isApplication ≤ visit.machine.callLimit := by
  induction path generalizing visit with
  | nil => exact within
  | cons next rest ih =>
      obtain ⟨starts, chain⟩ := List.isChain_cons_cons.mp chain
      have leveled := starts.leveled
      have quietToo : ∀ native ∈ next.machine.natives, native.CallsNothing := by
        intro native member
        obtain ⟨other, held, same⟩ := exists_native_of_hostCode leveled.host member
        exact fun calls told arguments => same ▸ quiet other held calls told arguments
      have bound := ih chain quietToo
      rw [leveled.limit] at bound
      cases isCall : visit.isCall with
      | true =>
          obtain ⟨room, deeper⟩ := leveled.deeper isCall
          rw [deeper] at bound
          have counted : (next :: rest).countP isApplication ≤ rest.countP isApplication + 1 := by
            rw [List.countP_cons]
            split <;> omega
          have := bound room
          omega
      | false =>
          rw [leveled.depth isCall] at bound
          rw [List.countP_cons_of_neg (by simp [starts.not_isApplication quiet isCall])]
          exact bound within

end Visit

namespace Session

open Machine

/--
A limit of active calls cuts runs short and changes nothing else about them, provided that the host
functions pass on the errors of the functions that they call. What ends without going too deep under
the lower limit ends the same under the higher one. What does so under the higher limit ends the same
under the lower one, or else with the one error of a call that went too deep and with nothing printed
that the other run did not print. If the host calls nothing back, then the calls that are active at
any moment, each started by the one before, do not exceed the limit.
-/
theorem Reached.call_limit_only_cuts {session : Session} (reached : session.Reached) (source : Text)
    {lower higher : Int} (positive : 1 ≤ lower) (ordered : lower ≤ higher)
    (host : ∀ native ∈ session.machine.natives, native.PassesErrors) :
    (∀ fuel after,
      (session.onMachine (setCallLimit lower)).run fuel source = .done () after →
      ¬ session.Overflows after →
      (session.onMachine (setCallLimit higher)).run fuel source =
        .done () (after.onMachine (setCallLimit higher))) ∧
    (∀ fuel after,
      (session.onMachine (setCallLimit higher)).run fuel source = .done () after →
      ¬ session.Overflows after →
      ∃ cut, (session.onMachine (setCallLimit lower)).run fuel source = .done () cut ∧
        (after = cut.onMachine (setCallLimit higher) ∨
          session.Overflows cut ∧
            cut.machine.output.toList <+: after.machine.output.toList)) ∧
    ∀ program checked, session.check source = .done (some program) checked →
      (∀ native ∈ session.machine.natives, native.CallsNothing) →
      ∀ path, List.IsChain Visit.Starts
          (⟨.interpret program, (session.machine.setCallLimit lower).resolve program⟩ :: path) →
        path.countP Visit.isApplication ≤ lower := by
  rw [setCallLimit_eq_withLimit positive, setCallLimit_eq_withLimit (Int.le_trans positive ordered)]
  have cuts := fun fuel => run_cut (Int.toNat_le_toNat ordered) fuel source host
  refine ⟨fun fuel after done calm => ?_, fun fuel after done calm => ?_, ?_⟩
  · cases cuts fuel with
    | same result_eq full_eq =>
        obtain ⟨kept, ended, rfl⟩ := Outcome.onMachine_eq_done _ (result_eq.symm.trans done)
        rw [full_eq, ended]
        rfl
    | short cut result_eq overflows =>
        cases result_eq.symm.trans done
        exact absurd overflows calm
  · cases cuts fuel with
    | same result_eq full_eq =>
        rw [done] at result_eq full_eq
        exact ⟨_, result_eq, .inl (Outcome.done.inj full_eq).2⟩
    | short cut result_eq overflows printed =>
        exact ⟨cut, result_eq, .inr ⟨overflows, printed after (congrArg Outcome.session? done)⟩⟩
  · intro program checked _ quiet path chain
    have atTop : ((session.machine.withLimit lower.toNat).resolve program).depth = 0 :=
      reached.invariant.1.depth
    have bound := Visit.applications_le chain quiet (atTop ▸ Nat.zero_le _)
    have active : path.countP Visit.isApplication ≤ lower.toNat := by
      rwa [atTop, Nat.zero_add] at bound
    omega

/-- Three functions, each of which calls the one before. -/
def ladder : Text :=
  "fun a() \x7b print \"a\"; \x7d fun b() \x7b a(); print \"b\"; \x7d\n" ++
    ("fun c() \x7b b(); print \"c\"; \x7d b(); c();" : Text)

/-- With room for two calls only, the last function does not get to its end. -/
theorem Reached.ladder_only_cut :
    ∃ after cut program checked,
      ((Session.start fun _ => 0).onMachine (setCallLimit 3)).run 40 ladder = .done () after ∧
      after.machine.output = #[("a\n" : Text), "b\n", "a\n", "b\n", "c\n"] ∧
      ((Session.start fun _ => 0).onMachine (setCallLimit 2)).run 40 ladder = .done () cut ∧
      (Session.start fun _ => 0).Overflows cut ∧
      cut.machine.output.toList <+: after.machine.output.toList ∧
      (Session.start fun _ => 0).check ladder = .done (some program) checked ∧
      ∀ path, List.IsChain Visit.Starts
          (⟨.interpret program, ((Machine.start fun _ => 0).setCallLimit 2).resolve program⟩ ::
            path) →
        path.countP Visit.isApplication ≤ (2 : Int) := by
  have runs : (((Session.start fun _ => 0).onMachine (setCallLimit 3)).run 40 ladder).passes
      (fun _ after => after.runtimeErrors.isEmpty &&
        after.machine.output == #[("a\n" : Text), "b\n", "a\n", "b\n", "c\n"]) = true := by
    decide +kernel
  have fails : (((Session.start fun _ => 0).onMachine (setCallLimit 2)).run 40 ladder).passes
      (fun _ cut => !cut.runtimeErrors.isEmpty) = true := by decide +kernel
  obtain ⟨_, after, done, tested⟩ := Outcome.passes_iff.mp runs
  obtain ⟨noErrors, printed⟩ := Bool.and_eq_true_iff.mp tested
  have calm := List.isEmpty_iff.mp noErrors
  obtain ⟨_, failed, doneToo, hadOne⟩ := Outcome.passes_iff.mp fails
  obtain ⟨program, accepts⟩ := (Source.isAccepted_iff ladder).mp (by decide +kernel)
  have clean : (Session.start fun _ => 0).hadError = false := rfl
  obtain ⟨checked, _, accepted⟩ := check_of_accepts clean accepts
  have fresh : (Session.start fun _ => 0).Reached := .start rfl rfl rfl rfl rfl
  have quiet : ∀ native ∈ (Session.start fun _ => 0).machine.natives, native.CallsNothing := by
    intro native member
    obtain rfl : native = Machine.clock fun _ => 0 := Array.mem_singleton.mp member
    exact Machine.clock_callsNothing _
  obtain ⟨_, cutShort, active⟩ := fresh.call_limit_only_cuts ladder
    (show (1 : Int) ≤ 2 by decide) (show (2 : Int) ≤ 3 by decide)
    fun native member => (quiet native member).passesErrors
  obtain ⟨cut, ended, same | ⟨overflows, shorter⟩⟩ := cutShort 40 after done (by
    rintro ⟨problem, _, reported⟩
    rw [calm] at reported
    cases reported)
  · cases ended.symm.trans doneToo
    rw [same] at calm
    simp [show failed.runtimeErrors = [] from calm] at hadOne
  · exact ⟨after, cut, _, checked, done, eq_of_beq printed, ended, overflows, shorter, accepted,
      active _ checked accepted quiet⟩

end Session

end Loxley
