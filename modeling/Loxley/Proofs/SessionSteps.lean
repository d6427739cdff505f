import Loxley.Proofs.Frame
import Loxley.Proofs.Session

/-!
# Sessions step by step

Whatever a host does with a session, the machine is at rest between the steps: in the environment of
the globals and with no call active, however the steps before have ended. Errors stay on record
until they are forgotten, and nothing runs while a diagnostic is on record.
-/

set_option autoImplicit false

namespace Loxley

namespace Machine

/-- Outside of all blocks and calls. -/
structure AtRest (machine : Machine) : Prop where
  current : machine.current = globals
  depth : machine.depth = 0

theorem AtRest.follow {growing : EnvironmentId → Prop} {before after : Machine}
    (rests : before.AtRest) (follows : Follows growing before after) : after.AtRest :=
  ⟨follows.current.trans rests.current, follows.depth.trans rests.depth⟩

end Machine

/-- Something is wrong with a source as a program, be it for the parser or for scope analysis. -/
def Source.Diagnosed (source : Text) : Prop :=
  (Source.program source).diagnostics ≠ [] ∨
    ∃ program, (Source.program source).result = .ok program ∧ Stmt.programFaults program ≠ []

theorem Source.Accepts.not_diagnosed {source : Text} {program : List (Stmt Unit)}
    (accepts : Source.Accepts source program) : ¬ Source.Diagnosed source := by
  rintro (found | ⟨other, parsed, faulty⟩)
  · exact found (by rw [accepts.parsed])
  · rw [accepts.parsed] at parsed
    cases parsed
    exact faulty accepts.faultless

namespace Outcome

variable {α β : Type}

/-- The session that an outcome leaves. -/
def session? : Outcome α → Option Session
  | .done _ session => some session
  | .fault _ session => some session
  | .exhausted => none

theorem session?_andThen {outcome : Outcome α} {next : α → Session → Outcome β} {after : Session}
    (left : (outcome.andThen next).session? = some after) :
    (∃ value middle, outcome = .done value middle ∧ (next value middle).session? = some after) ∨
      outcome.session? = some after := by
  cases outcome with
  | done value middle => exact .inl ⟨value, middle, rfl, left⟩
  | fault reason session => exact .inr left
  | exhausted => cases left

end Outcome

namespace Session

open Machine

/-- What a host may ask of a session. -/
inductive Step where
  | run (source : Text)
  | evaluate (source : Text)
  | check (source : Text)
  | parse (source : Text)
  | reset
  | setCallLimit (limit : Int)
  | defineNative (arity : Int) (native : Native)

namespace Step

/-- The session after a step, however it ended; there is none if the fuel did not suffice. -/
def perform (fuel : Nat) (session : Session) : Step → Option Session
  | .run source => (session.run fuel source).session?
  | .evaluate source => (session.evaluate fuel source).session?
  | .check source => (session.check source).session?
  | .parse source => (session.parse source).session?
  | .reset => some session.reset
  | .setCallLimit limit => some (session.onMachine (Machine.setCallLimit limit))
  | .defineNative arity native => some (session.onMachine (Machine.defineNative arity native))

/-- The steps that run code of the language. -/
def executes : Step → Bool
  | .run _ | .evaluate _ => true
  | _ => false

/-- Something is wrong with the source of a step. -/
def Diagnosed : Step → Prop
  | .run source | .check source => Source.Diagnosed source
  | .evaluate source => (Source.expression source).diagnostics ≠ []
  | .parse source => (Source.program source).diagnostics ≠ []
  | _ => False

end Step

/-- The flags tell whether errors are on record. -/
structure Flagged (session : Session) : Prop where
  hadError : session.hadError = true ↔ session.diagnostics ≠ []
  hadRuntimeError : session.hadRuntimeError = true ↔ session.runtimeErrors ≠ []

namespace Flagged

variable {session : Session}

theorem resembles {after : Session} (flagged : session.Flagged)
    (resembles : session.Resembles after) : after.Flagged where
  hadError := by rw [resembles.hadError, resembles.diagnostics, flagged.hadError]
  hadRuntimeError := by
    rw [resembles.hadRuntimeError, resembles.runtimeErrors, flagged.hadRuntimeError]

theorem reportAll (flagged : session.Flagged) (found : List Diagnostic) :
    (session.reportAll found).Flagged where
  hadError := by
    rw [reportAll_hadError, reportAll_diagnostics, Bool.or_eq_true, flagged.hadError]
    simp [or_iff_not_imp_left]
  hadRuntimeError := by
    rw [reportAll_hadRuntimeError, reportAll_runtimeErrors, flagged.hadRuntimeError]

theorem reportRuntime (flagged : session.Flagged) (problem : RuntimeError) :
    (session.reportRuntime problem).Flagged where
  hadError := flagged.hadError
  hadRuntimeError := by simp [Session.reportRuntime, writeReport, writeError]

end Flagged

/-- The sessions that come about step by step. The host functions may be any. -/
inductive Reached : Session → Prop
  | start {session : Session} {readings : Nat → Float}
      (fresh : session.machine = Machine.start readings) (noDiagnostics : session.diagnostics = [])
      (noErrors : session.runtimeErrors = []) (noneHad : session.hadError = false)
      (noneHadAtRuntime : session.hadRuntimeError = false) : Reached session
  | step {session after : Session} (fuel : Nat) (step : Step) (reached : Reached session)
      (performed : step.perform fuel session = some after) : Reached after

/-- Errors are added to the record, and diagnostics if and only if something is wrong. -/
structure Records (wrong : Prop) (before after : Session) : Prop where
  diagnostics : before.diagnostics <+: after.diagnostics
  runtimeErrors : before.runtimeErrors <+: after.runtimeErrors
  hadError : after.hadError = true ↔ before.hadError = true ∨ wrong
  flagged : before.Flagged → after.Flagged

/-- An analysis of a source leaves the machine alone. -/
structure Analyses (wrong : Prop) (before after : Session) : Prop
    extends Records wrong before after where
  machine : after.machine = before.machine

section Records

variable {wrong : Prop} {before after : Session}

theorem Records.onMachine (recorded : Records wrong before after) (machine : Machine) :
    Records wrong before { after with machine } where
  diagnostics := recorded.diagnostics
  runtimeErrors := recorded.runtimeErrors
  hadError := recorded.hadError
  flagged flagged := ⟨(recorded.flagged flagged).hadError, (recorded.flagged flagged).hadRuntimeError⟩

theorem Records.reportRuntime (recorded : Records wrong before after) (problem : RuntimeError) :
    Records wrong before (after.reportRuntime problem) where
  diagnostics := recorded.diagnostics
  runtimeErrors := recorded.runtimeErrors.trans (List.prefix_append ..)
  hadError := recorded.hadError
  flagged flagged := (recorded.flagged flagged).reportRuntime problem

end Records

theorem Resembles.records {before after : Session} {wrong : Prop}
    (resembles : before.Resembles after) (noneWrong : ¬ wrong) : Records wrong before after where
  diagnostics := resembles.diagnostics ▸ List.prefix_rfl
  runtimeErrors := resembles.runtimeErrors ▸ List.prefix_rfl
  hadError := by simp [resembles.hadError, noneWrong]
  flagged flagged := flagged.resembles resembles

/-- The sessions that differ from an earlier one by the diagnostics of an analysis. -/
theorem analyses_of_reportAll {before after : Session} (found : List Diagnostic)
    (resembles : (before.reportAll found).Resembles after) {wrong : Prop}
    (reported : before.hadError = false → (found ≠ [] ↔ wrong)) : Analyses wrong before after where
  diagnostics := by simp [resembles.diagnostics]
  runtimeErrors := by simp [resembles.runtimeErrors]
  machine := by simp [resembles.machine]
  flagged flagged := (flagged.reportAll found).resembles resembles
  hadError := by
    rw [resembles.hadError, reportAll_hadError]
    cases had : before.hadError with
    | false => simpa using reported had
    | true => simp

theorem parse_analyses {session after : Session} {source : Text}
    (left : (session.parse source).session? = some after) :
    Analyses ((Source.program source).diagnostics ≠ []) session after := by
  match parsed : Source.program source with
  | { diagnostics := found, result := .error reason } =>
      simp only [parse, parsed, Outcome.session?, Option.some.injEq] at left
      subst left
      exact analyses_of_reportAll found ((log_resembles _ _).reportAll found) fun _ => .rfl
  | { diagnostics := found, result := .ok program } =>
      obtain ⟨middle, done, resembles⟩ := session.parse_of_ok parsed
      rw [done] at left
      cases left
      exact analyses_of_reportAll found resembles fun _ => .rfl

theorem check_analyses {session after : Session} {source : Text}
    (left : (session.check source).session? = some after) :
    Analyses (Source.Diagnosed source) session after := by
  match parsed : Source.program source with
  | { diagnostics := found, result := .error reason } =>
      simp only [check, parse, parsed, Outcome.andThen, Outcome.session?, Option.some.injEq]
        at left
      subst left
      exact analyses_of_reportAll found ((log_resembles _ _).reportAll found)
        (by simp [Source.Diagnosed, parsed])
  | { diagnostics := found, result := .ok program } =>
      obtain ⟨middle, done, resembles⟩ := session.parse_of_ok parsed
      simp only [check, done, Outcome.andThen] at left
      have wrong : Source.Diagnosed source ↔ found ≠ [] ∨ Stmt.programFaults program ≠ [] := by
        simp [Source.Diagnosed, parsed]
      rw [wrong]
      by_cases hadError : middle.hadError = true
      · rw [if_pos hadError] at left
        cases left
        refine analyses_of_reportAll found resembles fun older => ?_
        have someFound : found ≠ [] := by simpa [resembles.hadError, older] using hadError
        simp [someFound]
      · rw [if_neg hadError] at left
        have noError := resembles.hadError.symm.trans (Bool.of_not_eq_true hadError)
        obtain ⟨_, rfl⟩ := (reportAll_hadError_eq_false_iff _ _).mp noError
        -- With or without faults of its scopes, the source has been analysed to the end.
        have analysed := (resembles.trans (middle.log_resembles "Resolving...")).reportAll
          (Stmt.programFaults program)
        refine analyses_of_reportAll (Stmt.programFaults program) ?_ (by simp)
        split at left
        · cases left
          exact analysed
        · cases left
          exact analysed.trans (log_resembles _ _)

/--
A program runs only if nothing is wrong with it and no diagnostic is on record. However it ends, it
leaves the machine at rest.
-/
theorem run_records {session after : Session} {fuel : Nat} {source : Text}
    (rests : session.machine.AtRest) (left : (session.run fuel source).session? = some after) :
    Records (Source.Diagnosed source) session after ∧ after.machine.AtRest := by
  by_cases accepted : session.hadError = false ∧ ∃ program, Source.Accepts source program
  · obtain ⟨clean, program, accepts⟩ := accepted
    obtain ⟨logged, resembles, ran⟩ := run_of_accepts fuel clean accepts
    have recorded := resembles.records accepts.not_diagnosed
    have resolved : (session.machine.resolve (Stmt.resolveProgram program)).AtRest :=
      ⟨rests.current, rests.depth⟩
    have met := interpret_growing fuel (session.machine.resolve (Stmt.resolveProgram program))
      (Stmt.resolveProgram program)
    rw [ran] at left
    simp only [execute, onMachine, resembles.machine] at left
    generalize interpret fuel (Stmt.resolveProgram program) _ = result at left met
    cases result with
    | ok value machine | fault reason machine =>
        cases left
        exact ⟨recorded.onMachine machine, resolved.follow met⟩
    | error problem machine =>
        cases left
        exact ⟨(recorded.onMachine machine).reportRuntime problem, resolved.follow met⟩
    | exhausted => cases left
  · have checked : (session.check source).session? = some after := by
      obtain ⟨checked, _, none | ⟨reason, fault⟩⟩ := check_of_not_accepts accepted
      · simpa only [run, none, Outcome.andThen, Outcome.session?] using left
      · simpa only [run, fault, Outcome.andThen, Outcome.session?] using left
    have analysed := check_analyses checked
    exact ⟨analysed.toRecords, analysed.machine ▸ rests⟩

/-- An accepted source leaves its distances with the machine, however its run ends. -/
theorem run_locals {session checked after : Session} {fuel : Nat} {source : Text}
    {program : List ResolvedStmt} (accepted : session.check source = .done (some program) checked)
    (left : (session.run fuel source).session? = some after) :
    after.machine.locals = Stmt.locals program ++ session.machine.locals := by
  obtain ⟨clean, _, _, accepts, resolved⟩ := accepts_of_check accepted
  obtain ⟨logged, resembles, ran⟩ := run_of_accepts fuel clean accepts
  have met := interpret_growing fuel (session.machine.resolve program) program
  rw [ran, ← resolved] at left
  simp only [execute, onMachine, resembles.machine] at left
  generalize interpret fuel program _ = result at left met
  cases result with
  | ok value machine | error problem machine | fault reason machine =>
      cases left
      exact met.locals
  | exhausted => cases left

theorem evaluate_records {session after : Session} {fuel : Nat} {source : Text}
    (rests : session.machine.AtRest) (left : (session.evaluate fuel source).session? = some after) :
    Records ((Source.expression source).diagnostics ≠ []) session after ∧ after.machine.AtRest := by
  by_cases accepted : session.hadError = false ∧
      ∃ expr, Source.expression source = { diagnostics := [], result := .ok (some expr) }
  · obtain ⟨clean, expr, parsed⟩ := accepted
    have recorded : Records ((Source.expression source).diagnostics ≠ []) session session :=
      Resembles.records ⟨rfl, rfl, rfl, rfl, rfl⟩ (by simp [parsed])
    have met := evaluate_steady fuel session.machine (expr.resolve [])
    rw [evaluate_of_accepts fuel clean parsed] at left
    generalize Machine.evaluate fuel (expr.resolve []) session.machine = result at left met
    cases result with
    | ok value machine | error problem machine | fault reason machine =>
        cases left
        exact ⟨recorded.onMachine machine, rests.follow met⟩
    | exhausted => cases left
  · have reported :
        some (session.reportAll (Source.expression source).diagnostics) = some after := by
      obtain ⟨failure, done⟩ | ⟨reason, fault⟩ := evaluate_of_not_accepts fuel accepted
      · rwa [done] at left
      · rwa [fault] at left
    cases reported
    have analysed : Analyses ((Source.expression source).diagnostics ≠ []) session
        (session.reportAll (Source.expression source).diagnostics) :=
      analyses_of_reportAll _ ⟨rfl, rfl, rfl, rfl, rfl⟩ fun _ => .rfl
    exact ⟨analysed.toRecords, analysed.machine ▸ rests⟩

/-- One step. Only a reset takes errors from the record. -/
theorem Step.perform_records {session after : Session} {fuel : Nat} {step : Step}
    (rests : session.machine.AtRest) (performed : step.perform fuel session = some after) :
    (step ≠ .reset → Records step.Diagnosed session after) ∧ after.machine.AtRest := by
  cases step with
  | run source => exact (run_records rests performed).imp_left fun recorded _ => recorded
  | evaluate source => exact (evaluate_records rests performed).imp_left fun recorded _ => recorded
  | check source =>
      have analysed := check_analyses performed
      exact ⟨fun _ => analysed.toRecords, analysed.machine ▸ rests⟩
  | parse source =>
      have analysed := parse_analyses performed
      exact ⟨fun _ => analysed.toRecords, analysed.machine ▸ rests⟩
  | reset =>
      cases performed
      exact ⟨fun other => absurd rfl other, rests⟩
  | setCallLimit limit | defineNative arity native =>
      cases performed
      exact ⟨fun _ => ⟨List.prefix_rfl, List.prefix_rfl, (or_iff_left id).symm,
        fun flagged => ⟨flagged.hadError, flagged.hadRuntimeError⟩⟩, rests.current, rests.depth⟩

/-- So between any two steps the machine is at rest, and the flags are right. -/
theorem Reached.invariant {session : Session} (reached : session.Reached) :
    session.machine.AtRest ∧ session.Flagged := by
  induction reached with
  | start fresh noDiagnostics noErrors noneHad noneHadAtRuntime =>
      exact ⟨fresh ▸ ⟨rfl, rfl⟩, by simp [noneHad, noDiagnostics],
        by simp [noneHadAtRuntime, noErrors]⟩
  | step fuel step _ performed ih =>
      obtain ⟨rests, flagged⟩ := ih
      obtain ⟨recorded, restsAgain⟩ := Step.perform_records rests performed
      refine ⟨restsAgain, ?_⟩
      by_cases resets : step = .reset
      · subst resets
        cases performed
        exact ⟨by simp [reset], by simp [reset]⟩
      · exact (recorded resets).flagged flagged

/-- Nothing runs while a diagnostic is on record, nor if the source itself leads to one. -/
theorem Step.perform_inert {session : Session} {step : Step} (executes : step.executes = true)
    (inert : session.hadError = true ∨ step.Diagnosed) (fuel : Nat) :
    ∃ after, step.perform fuel session = some after ∧ after.machine = session.machine := by
  cases step with
  | run source =>
      have rejected : ¬ (session.hadError = false ∧ ∃ program, Source.Accepts source program) := by
        rintro ⟨clean, program, accepts⟩
        exact inert.elim (fun hadOne => absurd (clean.symm.trans hadOne) Bool.false_ne_true)
          accepts.not_diagnosed
      obtain ⟨after, machine, done | ⟨reason, fault⟩⟩ := run_of_not_accepts fuel rejected
      · exact ⟨after, by simp only [perform, done, Outcome.session?], machine⟩
      · exact ⟨after, by simp only [perform, fault, Outcome.session?], machine⟩
  | evaluate source =>
      have rejected : ¬ (session.hadError = false ∧ ∃ expr,
          Source.expression source = { diagnostics := [], result := .ok (some expr) }) := by
        rintro ⟨clean, expr, parsed⟩
        exact inert.elim (fun hadOne => absurd (clean.symm.trans hadOne) Bool.false_ne_true)
          (fun diagnosed => diagnosed (by rw [parsed]))
      refine ⟨_, ?_, session.reportAll_machine (Source.expression source).diagnostics⟩
      obtain ⟨failure, done⟩ | ⟨reason, fault⟩ := evaluate_of_not_accepts fuel rejected
      · simp only [perform, done, Outcome.session?]
      · simp only [perform, fault, Outcome.session?]
  | check | parse | reset | setCallLimit | defineNative => cases executes

/--
Between any two steps the machine is at rest, and the flags tell whether errors are on record. These
stay until the next reset. A source that runs or is evaluated while the flag for diagnostics is set,
or that leads to one itself, leaves the whole machine as it was: what has been printed, all
environments, and the distances of local variables.
-/
theorem Reached.rests_between_steps {session : Session} (reached : session.Reached) :
    session.machine.current = globals ∧ session.machine.depth = 0 ∧
    (session.hadError = true ↔ session.diagnostics ≠ []) ∧
    (session.hadRuntimeError = true ↔ session.runtimeErrors ≠ []) ∧
    (∀ (fuel : Nat) (step : Step) (after : Session), step.perform fuel session = some after →
      step ≠ .reset →
      session.diagnostics <+: after.diagnostics ∧ session.runtimeErrors <+: after.runtimeErrors ∧
      (after.hadError = true ↔ session.hadError = true ∨ step.Diagnosed)) ∧
    ∀ (fuel : Nat) (step : Step), step.executes = true →
      session.hadError = true ∨ step.Diagnosed →
      ∃ after, step.perform fuel session = some after ∧ after.machine = session.machine := by
  obtain ⟨rests, flagged⟩ := reached.invariant
  refine ⟨rests.current, rests.depth, flagged.hadError, flagged.hadRuntimeError, ?_, ?_⟩
  · intro fuel step after performed kept
    have recorded := (Step.perform_records rests performed).1 kept
    exact ⟨recorded.diagnostics, recorded.runtimeErrors, recorded.hadError⟩
  · exact fun fuel step executes inert => Step.perform_inert executes inert fuel

/--
A host function that calls its first argument with the others. After an error it tries once more, and
gives back what comes of that.
-/
def insist : Native where
  name := "insist"
  act _ _ arguments :=
    match arguments with
    | callee :: others =>
      .apply callee others fun _ first =>
        if first.error.isSome then .apply callee others fun _ second => .answer second
        else .answer first
    | [] => .answer {}

/-- Calls itself from inside a loop and a block, by way of the host. -/
def dive : Text :=
  "fun dive() \x7b while (true) \x7b var d = dive; \x7b return insist(d); \x7d \x7d \x7d dive();"

/-- A run that has gone too deep and a source that cannot be read leave the machine at rest. -/
theorem Reached.dive_rests_between_steps :
    ∃ session : Session, session.Reached ∧
      session.runtimeErrors.map (·.mishap) = [.callsTooDeep] ∧
      session.machine.locals.map (·.reference) = [1] ∧
      session.machine.current = globals ∧ session.machine.depth = 0 ∧ session.hadError = true ∧
      ∀ fuel, ∃ after, (Step.run "print dive;").perform fuel session = some after ∧
        after.machine = session.machine := by
  let prepared : Session :=
    ((Session.start fun _ => 0).onMachine (Machine.defineNative 1 insist)).onMachine
      (Machine.setCallLimit 3)
  have ready : prepared.Reached :=
    .step 0 (.setCallLimit 3)
      (.step 0 (.defineNative 1 insist) (.start rfl rfl rfl rfl rfl) rfl) rfl
  have runs : ((prepared.run 60 dive).andThen fun _ session => session.run 60 "print dive").passes
      (fun _ session => session.runtimeErrors.map (·.mishap) == [.callsTooDeep] &&
        (session.machine.locals.map (·.reference) == [1] && session.hadError)) = true := by
    decide +kernel
  obtain ⟨_, session, done, tested⟩ := Outcome.passes_iff.mp runs
  obtain ⟨overflowed, others⟩ := Bool.and_eq_true_iff.mp tested
  obtain ⟨kept, hadOne⟩ := Bool.and_eq_true_iff.mp others
  have reached : session.Reached := by
    obtain ⟨_, middle, ran, unread⟩ | ran :=
      Outcome.session?_andThen ((congrArg Outcome.session? done).trans rfl)
    · have dived : (Step.run dive).perform 60 prepared = some middle := by
        rw [Step.perform, ran, Outcome.session?]
      exact .step 60 (.run "print dive") (.step 60 (.run dive) ready dived) unread
    · exact .step 60 (.run dive) ready ran
  obtain ⟨current, depth, _, _, _, inert⟩ := reached.rests_between_steps
  exact ⟨session, reached, eq_of_beq overflowed, eq_of_beq kept, current, depth, hadOne,
    fun fuel => inert fuel (.run "print dive;") rfl (.inl hadOne)⟩

end Session

end Loxley
