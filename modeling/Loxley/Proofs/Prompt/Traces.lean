import Loxley.Proofs.ErrorOutput
import Loxley.Proofs.Prompt.Printing
import Loxley.Proofs.SessionSteps

/-!
# Entries that come to nothing

At the prompt, every entry starts with a clean record and with the machine at rest. An entry that is
abandoned, or turned down with a diagnostic, might as well not have been entered: all other inputs
are asked for in the same way and lead to the same text.
-/

set_option autoImplicit false

namespace Loxley.Prompt

/-! ## Inputs one after the other -/

def takeAll (fuel : Nat) : List Input → Prompt → Next
  | [], prompt => .more prompt
  | input :: rest, prompt =>
    match prompt.take fuel input with
    | .more next => takeAll fuel rest next
    | last => last

/-- What has been written to an output between two moments. -/
def since (before after : Array Text) : Text :=
  (after.toList.drop before.size).flatten

/--
What an input led to. An input that continues was asked for by the prompt for more lines, so it
belongs to the same entry as the line before it.
-/
structure Turn where
  input : Input
  continues : Bool
  output : Text
  errors : Text

def turn (input : Input) (before after : Prompt) : Turn where
  input
  continues := !before.pending.isEmpty
  output := since before.session.machine.output after.session.machine.output
  errors := since before.session.errorOutput after.session.errorOutput

/-- The turns of a conversation, up to its end. -/
def turns (fuel : Nat) : List Input → Prompt → List Turn
  | [], _ => []
  | input :: rest, prompt =>
    match prompt.take fuel input with
    | .more next => turn input prompt next :: turns fuel rest next
    | .finished last => [turn input prompt last]
    | .fault _ last => [turn input prompt last]
    | .exhausted => []

section Sequences

variable {fuel : Nat} {input : Input} {first rest : List Input} {prompt middle : Prompt}

theorem takeAll_cons_eq_more (led : takeAll fuel (input :: rest) prompt = .more middle) :
    ∃ next, prompt.take fuel input = .more next ∧ takeAll fuel rest next = .more middle := by
  simp only [takeAll] at led
  cases taken : prompt.take fuel input with
  | more next =>
      rw [taken] at led
      exact ⟨next, rfl, led⟩
  | finished | fault | exhausted => simp [taken] at led

theorem takeAll_append (led : takeAll fuel first prompt = .more middle) (second : List Input) :
    takeAll fuel (first ++ second) prompt = takeAll fuel second middle := by
  induction first generalizing prompt with
  | nil =>
      cases led
      rfl
  | cons input rest ih =>
      obtain ⟨next, taken, led⟩ := takeAll_cons_eq_more led
      simp only [List.cons_append, takeAll, taken]
      exact ih led

theorem turns_append (led : takeAll fuel first prompt = .more middle) (second : List Input) :
    turns fuel (first ++ second) prompt =
      turns fuel first prompt ++ turns fuel second middle := by
  induction first generalizing prompt with
  | nil =>
      cases led
      rfl
  | cons input rest ih =>
      obtain ⟨next, taken, led⟩ := takeAll_cons_eq_more led
      simp only [List.cons_append, turns, taken]
      rw [ih led]

end Sequences

/-! ## Between entries -/

/-- Nothing is on record, and the machine is at rest. -/
structure Rests (prompt : Prompt) : Prop where
  record : prompt.session.reset = prompt.session
  machine : prompt.session.machine.AtRest

theorem carryOut_atRest {fuel : Nat} {source : Text} {session after : Session}
    (rests : session.machine.AtRest) (carried : carryOut fuel source session = .done () after) :
    after.machine.AtRest := by
  unfold carryOut at carried
  split at carried
  · cases carried
  · cases evaluated : session.evaluate fuel source with
    | fault | exhausted => simp [evaluated, Outcome.andThen] at carried
    | done value middle =>
        have resting := (Session.evaluate_records rests (congrArg Outcome.session? evaluated)).2
        simp only [evaluated, Outcome.andThen] at carried
        split at carried
        · next value =>
            have framed := Machine.print_steady middle.machine value
            generalize middle.machine.print value = shown at carried framed
            cases shown with
            | ok _ machine | error problem machine =>
                cases carried
                exact resting.follow framed
            | fault | exhausted => cases carried
        · cases carried
          exact resting
        · cases carried
          exact resting
  · exact (Session.run_records rests (congrArg Outcome.session? carried)).2

theorem runEntry_eq_done {fuel : Nat} {source : Text} {session after : Session}
    (ran : runEntry fuel source session = .done () after) :
    ∃ recorded, carryOut fuel source session = .done () recorded ∧ after = recorded.reset := by
  unfold runEntry at ran
  cases carried : carryOut fuel source session with
  | fault | exhausted => simp [carried, Outcome.ensuring] at ran
  | done _ recorded =>
      simp only [carried, Outcome.ensuring] at ran
      cases ran
      exact ⟨recorded, rfl, rfl⟩

theorem showGlobals_eq_more {prompt next : Prompt} (shown : prompt.showGlobals = .more next) :
    ∃ text, next = prompt.write text := by
  simp only [showGlobals] at shown
  split at shown
  · cases shown
    exact ⟨_, rfl⟩
  · cases shown

theorem enter_rests {fuel : Nat} {source : Text} {prompt next : Prompt} (rests : prompt.Rests)
    (entered : prompt.enter fuel source = .more next) : next.Rests := by
  have written : ∀ text, (prompt.write text).Rests := fun text =>
    ⟨congrArg (Session.onMachine (Machine.write text)) rests.record, rests.machine.current,
      rests.machine.depth⟩
  simp only [enter] at entered
  split at entered
  · cases entered
    exact rests
  · split at entered
    · split at entered
      · cases entered
      · cases entered
        exact written _
      · obtain ⟨text, rfl⟩ := showGlobals_eq_more entered
        exact written text
      · cases entered
        exact written _
    · split at entered <;> cases entered
      next session ran =>
        obtain ⟨recorded, carried, rfl⟩ := runEntry_eq_done ran
        have resting := carryOut_atRest rests.machine carried
        exact ⟨rfl, resting.current, resting.depth⟩

theorem take_rests {fuel : Nat} {input : Input} {prompt next : Prompt} (rests : prompt.Rests)
    (taken : prompt.take fuel input = .more next) : next.Rests := by
  have still : ∀ pending, ({ prompt with pending } : Prompt).Rests := fun _ =>
    ⟨rests.record, rests.machine⟩
  cases input with
  | endOfInput => cases taken
  | interrupt =>
      cases taken
      exact still []
  | line text =>
      simp only [take] at taken
      split at taken
      · cases taken
      · cases taken
        exact still _
      · exact enter_rests (still []) taken

theorem takeAll_rests {fuel : Nat} {inputs : List Input} {prompt next : Prompt}
    (rests : prompt.Rests) (led : takeAll fuel inputs prompt = .more next) : next.Rests := by
  induction inputs generalizing prompt with
  | nil =>
      cases led
      exact rests
  | cons input rest ih =>
      obtain ⟨middle, taken, led⟩ := takeAll_cons_eq_more led
      exact ih (take_rests rests taken) led

/-! ## Two conversations side by side -/

/-- The same prompt, whatever is on standard error and in the history. -/
structure Alike (prompt other : Prompt) : Prop where
  session : prompt.session.Alike other.session
  pending : other.pending = prompt.pending

/-- Two sessions have gone on to prompts that are alike, and have written the same errors. -/
structure Parallel (session other : Session) (next later : Prompt) : Prop where
  alike : next.Alike later
  errors : since other.errorOutput later.session.errorOutput =
    since session.errorOutput next.session.errorOutput

inductive ParallelNext (session other : Session) : Next → Next → Prop
  | more {next later : Prompt} (parallel : Parallel session other next later) :
      ParallelNext session other (.more next) (.more later)
  | finished {last final : Prompt} (parallel : Parallel session other last final) :
      ParallelNext session other (.finished last) (.finished final)
  | fault {reason : Fault} {last final : Prompt} (parallel : Parallel session other last final) :
      ParallelNext session other (.fault reason last) (.fault reason final)
  | exhausted : ParallelNext session other .exhausted .exhausted

/-- Two conversations have come to the same point. -/
inductive AlikeNext : Next → Next → Prop
  | more {prompt other : Prompt} (alike : prompt.Alike other) :
      AlikeNext (.more prompt) (.more other)
  | finished {prompt other : Prompt} (alike : prompt.Alike other) :
      AlikeNext (.finished prompt) (.finished other)
  | fault {reason : Fault} {prompt other : Prompt} (alike : prompt.Alike other) :
      AlikeNext (.fault reason prompt) (.fault reason other)
  | exhausted : AlikeNext .exhausted .exhausted

theorem since_append (before added : Array Text) :
    since before (before ++ added) = added.toList.flatten := by
  simp [since]

theorem carryOut_behind (earlier : Array Text) (fuel : Nat) (source : Text) (session : Session) :
    carryOut fuel source (session.behind earlier) =
      (carryOut fuel source session).behind earlier := by
  unfold carryOut
  split
  · rfl
  · rw [Session.evaluate_behind]
    refine Outcome.andThen_behind (fun value evaluated => ?_) _
    split
    · exact Session.settle_behind earlier evaluated _
    · rw [Session.reportRuntime_behind]
      rfl
    · rfl
  · rw [Session.run_behind]

theorem runEntry_behind (earlier : Array Text) (fuel : Nat) (source : Text) (session : Session) :
    runEntry fuel source (session.behind earlier) =
      (runEntry fuel source session).behind earlier := by
  unfold runEntry
  rw [carryOut_behind]
  cases carryOut fuel source session <;> rfl

section Parallel

variable {prompt other next later : Prompt} {session another changed : Session}

theorem Parallel.of_behind
    (next_eq : next.session = changed.behind session.errorOutput)
    (later_eq : later.session = changed.behind another.errorOutput)
    (pending : later.pending = next.pending) : Parallel session another next later := by
  refine ⟨⟨?_, pending⟩, ?_⟩
  · rw [next_eq, later_eq]
    rfl
  · rw [next_eq, later_eq]
    exact (since_append _ _).trans (since_append _ _).symm

theorem Parallel.turn_eq (alike : prompt.Alike other)
    (parallel : Parallel prompt.session other.session next later) (input : Input) :
    turn input other later = turn input prompt next := by
  simp only [turn, alike.pending, alike.session.machine_eq, parallel.alike.session.machine_eq,
    parallel.errors]

theorem write_parallel (text : Text) (alike : prompt.Alike other) :
    Parallel prompt.session other.session (prompt.write text) (other.write text) := by
  obtain ⟨base, here, there⟩ := alike.session.behind
  have wroteHere : (prompt.write text).session =
      (base.onMachine (Machine.write text)).behind prompt.session.errorOutput :=
    congrArg (Session.onMachine (Machine.write text)) here
  have wroteThere : (other.write text).session =
      (base.onMachine (Machine.write text)).behind other.session.errorOutput :=
    congrArg (Session.onMachine (Machine.write text)) there
  exact .of_behind wroteHere wroteThere alike.pending

theorem showGlobals_parallel (alike : prompt.Alike other) :
    ParallelNext prompt.session other.session prompt.showGlobals other.showGlobals := by
  simp only [showGlobals, alike.session.machine_eq]
  split
  · exact .more (write_parallel _ alike)
  · exact .fault (write_parallel _ alike)

theorem enter_parallel (fuel : Nat) (source : Text) (alike : prompt.Alike other) :
    ParallelNext prompt.session other.session (prompt.enter fuel source)
      (other.enter fuel source) := by
  obtain ⟨base, here, there⟩ := alike.session.behind
  have unchanged : Parallel prompt.session other.session prompt other :=
    .of_behind here there alike.pending
  simp only [enter]
  split
  · exact .more unchanged
  · split
    · split
      · exact .finished unchanged
      · exact .more (write_parallel _ alike)
      · exact showGlobals_parallel alike
      · exact .more (write_parallel _ alike)
    · have ranHere := runEntry_behind prompt.session.errorOutput fuel source base
      have ranThere := runEntry_behind other.session.errorOutput fuel source base
      rw [← here] at ranHere
      rw [← there] at ranThere
      rw [ranHere, ranThere]
      cases runEntry fuel source base with
      | done value after => exact .more (.of_behind rfl rfl alike.pending)
      | fault reason after => exact .fault (.of_behind rfl rfl alike.pending)
      | exhausted => exact .exhausted

theorem take_parallel (fuel : Nat) (input : Input) (alike : prompt.Alike other) :
    ParallelNext prompt.session other.session (prompt.take fuel input)
      (other.take fuel input) := by
  obtain ⟨base, here, there⟩ := alike.session.behind
  have still : ∀ pending, Parallel prompt.session other.session
      { prompt with pending } { other with pending } := fun _ => .of_behind here there rfl
  cases input with
  | endOfInput => exact .finished (write_parallel _ alike)
  | interrupt => exact .more (still [])
  | line text =>
      simp only [take, alike.pending]
      split
      · exact .fault (.of_behind here there alike.pending)
      · exact .more (still _)
      · exact enter_parallel fuel _ (still []).alike

theorem takeAll_alike (fuel : Nat) (inputs : List Input) (alike : prompt.Alike other) :
    turns fuel inputs other = turns fuel inputs prompt ∧
      AlikeNext (takeAll fuel inputs prompt) (takeAll fuel inputs other) := by
  induction inputs generalizing prompt other with
  | nil => exact ⟨rfl, .more alike⟩
  | cons input rest ih =>
      have same := fun {next later : Prompt} => @Parallel.turn_eq prompt other next later alike
      have parallel := take_parallel fuel input alike
      simp only [turns, takeAll]
      generalize prompt.take fuel input = here at parallel
      generalize other.take fuel input = there at parallel
      cases parallel with
      | more parallel =>
          obtain ⟨sameTurns, sameEnd⟩ := ih parallel.alike
          exact ⟨congrArg₂ List.cons (same parallel input) sameTurns, sameEnd⟩
      | finished parallel =>
          exact ⟨congrArg (fun turn => [turn]) (same parallel input), .finished parallel.alike⟩
      | fault parallel =>
          exact ⟨congrArg (fun turn => [turn]) (same parallel input), .fault parallel.alike⟩
      | exhausted => exact ⟨rfl, .exhausted⟩

end Parallel

/-! ## Entries without a trace -/

/-- The text of an entry that goes on with another line. -/
def extend (pending line : Text) : Text :=
  if pending.isEmpty then line else pending ++ Text.newline :: line

/-- None of the lines completes the entry that is pending. -/
inductive Held : Text → List Text → Text → Prop
  | nil {pending : Text} : Held pending [] pending
  | cons {pending line last : Text} {rest : List Text}
      (incomplete : isIncomplete (extend pending line) = .ok true)
      (held : Held (extend pending line) rest last) : Held pending (line :: rest) last

/--
The inputs of one entry, from one primary prompt to the next, that was abandoned or was turned down
with a diagnostic.
-/
inductive Dropped (fuel : Nat) (session : Session) : List Input → Prop
  | abandoned {lines : List Text} {pending : Text} (held : Held [] lines pending) :
      Dropped fuel session (lines.map .line ++ [.interrupt])
  | rejected {lines : List Text} {pending line : Text} {after : Session}
      (held : Held [] lines pending) (complete : isIncomplete (extend pending line) = .ok false)
      (notCommand : (extend pending line).trimSpace.head? ≠ some 58)
      (carried : carryOut fuel (extend pending line) session = .done () after)
      (diagnosed : after.hadError = true) :
      Dropped fuel session (lines.map .line ++ [.line line])

theorem Held.takeAll_eq {pending last : Text} {lines : List Text} (held : Held pending lines last)
    (fuel : Nat) (prompt : Prompt) :
    takeAll fuel (lines.map .line) { prompt with pending } =
      .more { prompt with pending := last } := by
  induction held with
  | nil => rfl
  | cons incomplete _ ih =>
      have taken := incomplete
      unfold extend at taken
      simp only [List.map_cons, takeAll, take, taken]
      exact ih

/-- An entry with a diagnostic has not been started. -/
theorem carryOut_reports {fuel : Nat} {source : Text} {session after : Session}
    (clean : session.hadError = false) (rests : session.machine.AtRest)
    (carried : carryOut fuel source session = .done () after) (diagnosed : after.hadError = true) :
    session.Reports after := by
  unfold carryOut at carried
  split at carried
  · cases carried
  next isExpr =>
    obtain ⟨expr, parsed⟩ := (isExpression_eq_true_iff source).mp isExpr
    cases evaluated : session.evaluate fuel source with
    | fault | exhausted => simp [evaluated, Outcome.andThen] at carried
    | done value middle =>
        have recorded := (Session.evaluate_records rests (congrArg Outcome.session? evaluated)).1
        have sameRecord : after.hadError = middle.hadError := by
          simp only [evaluated, Outcome.andThen] at carried
          split at carried
          · generalize middle.machine.print _ = shown at carried
            cases shown <;> cases carried <;> rfl
          · cases carried
            rfl
          · cases carried
            rfl
        rw [sameRecord, recorded.hadError] at diagnosed
        simp [clean, parsed] at diagnosed
  next =>
    have recorded := (Session.run_records rests (congrArg Outcome.session? carried)).1
    have wrong : Source.Diagnosed source := by simpa [clean] using recorded.hadError.mp diagnosed
    have notAccepted : ¬ (session.hadError = false ∧ ∃ program, Source.Accepts source program) := by
      intro accepted
      obtain ⟨_, program, accepts⟩ := accepted
      exact accepts.not_diagnosed wrong
    obtain ⟨checked, _, none | ⟨reason, fault⟩⟩ := Session.check_of_not_accepts notAccepted
    · simp only [Session.run, none, Outcome.andThen] at carried
      cases carried
      exact Session.check_reports none
    · simp [Session.run, fault, Outcome.andThen] at carried

theorem Dropped.takeAll_alike {fuel : Nat} {prompt : Prompt} {entry : List Input}
    (rests : prompt.Rests) (primary : prompt.pending = [])
    (dropped : Dropped fuel prompt.session entry) :
    ∃ next, takeAll fuel entry prompt = .more next ∧ prompt.Alike next := by
  have unchanged : { prompt with pending := [] } = prompt := by rw [← primary]
  cases dropped with
  | abandoned held =>
      have kept := held.takeAll_eq fuel prompt
      rw [unchanged] at kept
      exact ⟨prompt, by rw [takeAll_append kept, takeAll, take, unchanged]; rfl, rfl, rfl⟩
  | @rejected lines pending line after held complete notCommand carried diagnosed =>
      have kept := held.takeAll_eq fuel prompt
      rw [unchanged] at kept
      have entered : take fuel (.line line) { prompt with pending } =
          prompt.enter fuel (extend pending line) := by
        unfold extend at complete
        simp only [take, complete, unchanged]
        rfl
      have clean : prompt.session.hadError = false := by rw [← rests.record]; rfl
      have reports := carryOut_reports clean rests.machine carried diagnosed
      have ran : runEntry fuel (extend pending line) prompt.session = .done () after.reset := by
        rw [runEntry, carried]
        rfl
      rw [takeAll_append kept, takeAll, entered]
      by_cases blank : (extend pending line).trimSpace.isEmpty = true
      · simp only [enter, blank, if_true]
        exact ⟨prompt, rfl, rfl, rfl⟩
      · simp only [enter, blank, notCommand, if_false, ran]
        exact ⟨_, rfl, reports.alike_reset rests.record, rfl⟩

/--
At every prompt nothing is on record and the machine is at rest. If an entry was abandoned or turned
down with a diagnostic, all other inputs have the same turns without it, so they make up the same
entries with the same text, and the conversation comes to the same point.
-/
theorem dropped_entry_leaves_no_trace {prompt : Prompt} (rests : prompt.Rests) (fuel : Nat) :
    (∀ inputs next, takeAll fuel inputs prompt = .more next →
      next.session.diagnostics = [] ∧ next.session.runtimeErrors = [] ∧
        next.session.hadError = false ∧ next.session.hadRuntimeError = false ∧
        next.session.machine.current = Machine.globals ∧ next.session.machine.depth = 0) ∧
    ∀ before entry after middle, takeAll fuel before prompt = .more middle →
      middle.pending = [] → Dropped fuel middle.session entry →
      turns fuel (before ++ entry ++ after) prompt =
        turns fuel before prompt ++ turns fuel entry middle ++ turns fuel after middle ∧
      turns fuel (before ++ after) prompt =
        turns fuel before prompt ++ turns fuel after middle ∧
      AlikeNext (takeAll fuel (before ++ after) prompt)
        (takeAll fuel (before ++ entry ++ after) prompt) := by
  constructor
  · intro inputs next led
    have resting := takeAll_rests rests led
    rw [← resting.record]
    exact ⟨rfl, rfl, rfl, rfl, resting.machine.current, resting.machine.depth⟩
  · intro before entry after middle led primary dropped
    obtain ⟨next, dropping, alike⟩ := dropped.takeAll_alike (takeAll_rests rests led) primary
    obtain ⟨sameTurns, sameEnd⟩ := takeAll_alike fuel after alike
    refine ⟨?_, turns_append led after, ?_⟩
    · rw [List.append_assoc, turns_append led, turns_append dropping, sameTurns, List.append_assoc]
    · rw [List.append_assoc, takeAll_append led, takeAll_append led, takeAll_append dropping]
      exact sameEnd

def Next.passes (test : Prompt → Bool) : Next → Bool
  | .more prompt => test prompt
  | _ => false

theorem Next.passes_iff {test : Prompt → Bool} {next : Next} :
    next.passes test = true ↔ ∃ prompt, next = .more prompt ∧ test prompt = true := by
  cases next <;> simp [Next.passes]

/-- Two lines that declare the same variable twice. -/
def clash : List Text := ["\x7b var b = 1;", "var b = 2; \x7d"]

theorem clash_leaves_no_trace :
    let start : Prompt := { session := Session.start fun _ => 0 }
    let before : List Input := [.line "var a = 1;"]
    let after : List Input := [.line "(a +", .line "1)", .endOfInput]
    start.Rests ∧ ∃ middle, takeAll 40 before start = .more middle ∧ middle.pending = [] ∧
      Dropped 40 middle.session (clash.map .line) ∧
      turns 40 (before ++ clash.map .line ++ after) start =
        turns 40 before start ++ turns 40 (clash.map .line) middle ++ turns 40 after middle ∧
      turns 40 (before ++ after) start = turns 40 before start ++ turns 40 after middle ∧
      AlikeNext (takeAll 40 (before ++ after) start)
        (takeAll 40 (before ++ clash.map .line ++ after) start) ∧
      (turns 40 after middle).map (fun turn => (turn.continues, turn.output)) =
        [(false, []), (true, ("2\n" : Text)), (false, [Text.newline])] := by
  intro start before after
  have rests : start.Rests := ⟨rfl, rfl, rfl⟩
  have led : (takeAll 40 before start).passes (fun middle => middle.pending.isEmpty &&
      decide ((turns 40 after middle).map (fun turn => (turn.continues, turn.output)) =
        [(false, []), (true, ("2\n" : Text)), (false, [Text.newline])]) &&
      (carryOut 40 (extend (extend [] clash[0]) clash[1]) middle.session).passes
        fun _ turnedDown => turnedDown.hadError) = true := by
    decide +kernel
  obtain ⟨middle, led, tested⟩ := Next.passes_iff.mp led
  obtain ⟨shown, carried⟩ := Bool.and_eq_true_iff.mp tested
  obtain ⟨primary, shown⟩ := Bool.and_eq_true_iff.mp shown
  obtain ⟨_, turnedDown, carried, diagnosed⟩ := Outcome.passes_iff.mp carried
  have held : Held [] [clash[0]] (extend [] clash[0]) := .cons (by decide +kernel) .nil
  have dropped : Dropped 40 middle.session (clash.map .line) :=
    .rejected held (by decide +kernel) (by decide +kernel) carried diagnosed
  have primary := List.isEmpty_iff.mp primary
  obtain ⟨withClash, without, sameEnd⟩ :=
    (dropped_entry_leaves_no_trace rests 40).2 _ _ after middle led primary dropped
  exact ⟨rests, middle, led, primary, dropped, withClash, without, sameEnd, of_decide_eq_true shown⟩

end Loxley.Prompt
