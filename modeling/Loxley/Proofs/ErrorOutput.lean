import Loxley.Proofs.Session

/-!
# Standard error

A session never reads what it has written to standard error. So whatever stood there before an
action stays in front of what the action writes, and makes no other difference.
-/

set_option autoImplicit false

namespace Loxley

/-- The session with something on standard error before everything else. -/
def Session.behind (earlier : Array Text) (session : Session) : Session :=
  { session with errorOutput := earlier ++ session.errorOutput }

namespace Outcome

variable {α β : Type}

def behind (earlier : Array Text) : Outcome α → Outcome α
  | .done value session => .done value (session.behind earlier)
  | .fault reason session => .fault reason (session.behind earlier)
  | .exhausted => .exhausted

theorem andThen_behind {earlier : Array Text} {next : α → Session → Outcome β}
    (oblivious : ∀ value session, next value (session.behind earlier) =
      (next value session).behind earlier) (outcome : Outcome α) :
    (outcome.behind earlier).andThen next = (outcome.andThen next).behind earlier := by
  cases outcome with
  | done value session => exact oblivious value session
  | fault reason session => rfl
  | exhausted => rfl

end Outcome

namespace Session

section Behind

variable (earlier : Array Text) (session : Session)

theorem hadError_behind : (session.behind earlier).hadError = session.hadError := rfl

theorem writeError_behind (text : Text) :
    (session.behind earlier).writeError text = (session.writeError text).behind earlier := by
  simp [writeError, behind]

theorem writeReport_behind (text : Text) :
    (session.behind earlier).writeReport text = (session.writeReport text).behind earlier :=
  session.writeError_behind earlier _

theorem log_behind (text : Text) :
    (session.behind earlier).log text = (session.log text).behind earlier := by
  cases verbose : session.verbose with
  | false => simp [log, verbose, behind]
  | true =>
      have written := session.writeError_behind earlier
        ((if session.coloured then faint else []) ++ text ++ [Text.newline])
      simpa [log, verbose, behind] using written

theorem reportAll_behind (found : List Diagnostic) :
    (session.behind earlier).reportAll found = (session.reportAll found).behind earlier := by
  induction found generalizing session with
  | nil => rfl
  | cons first rest ih =>
      have reported : (session.behind earlier).report first =
          (session.report first).behind earlier :=
        writeReport_behind earlier
          { session with diagnostics := session.diagnostics ++ [first], hadError := true } first.text
      simp only [reportAll, List.foldl_cons, reported]
      exact ih (session.report first)

theorem reportRuntime_behind (problem : RuntimeError) :
    (session.behind earlier).reportRuntime problem =
      (session.reportRuntime problem).behind earlier :=
  writeReport_behind earlier
    { session with
      runtimeErrors := session.runtimeErrors ++ [problem]
      hadRuntimeError := true } problem.text

theorem parse_behind (source : Text) :
    (session.behind earlier).parse source = (session.parse source).behind earlier := by
  simp only [parse, log_behind, reportAll_behind]
  split
  · rfl
  · simp only [hadError_behind, Outcome.behind, apply_ite (behind earlier)]
    rfl

theorem check_behind (source : Text) :
    (session.behind earlier).check source = (session.check source).behind earlier := by
  simp only [check, parse_behind]
  refine Outcome.andThen_behind (fun program parsed => ?_) (session.parse source)
  simp only [hadError_behind, log_behind, reportAll_behind]
  split
  · rfl
  · split <;> rfl

theorem settle_behind (result : Result Unit) :
    (session.behind earlier).settle result = (session.settle result).behind earlier := by
  cases result with
  | ok value machine => rfl
  | error problem machine =>
      exact congrArg (Outcome.done ())
        (reportRuntime_behind earlier { session with machine } problem)
  | fault reason machine => rfl
  | exhausted => rfl

theorem conclude_behind (result : Result Value) :
    (session.behind earlier).conclude result = (session.conclude result).behind earlier := by
  cases result <;> rfl

theorem run_behind (fuel : Nat) (source : Text) :
    (session.behind earlier).run fuel source = (session.run fuel source).behind earlier := by
  simp only [run, check_behind]
  refine Outcome.andThen_behind (fun program checked => ?_) (session.check source)
  cases program with
  | none => rfl
  | some program =>
      cases program with
      | nil => rfl
      | cons first rest =>
          simp only [log_behind]
          exact settle_behind earlier
            ((checked.log "Executing...").onMachine (Machine.resolve (first :: rest))) _

theorem evaluate_behind (fuel : Nat) (source : Text) :
    (session.behind earlier).evaluate fuel source =
      (session.evaluate fuel source).behind earlier := by
  have reported : ((session.reportAll (Source.expression source).diagnostics).behind
      earlier).reportText = (session.reportAll (Source.expression source).diagnostics).reportText :=
    rfl
  simp only [evaluate, reportAll_behind, hadError_behind, reported]
  split
  · rfl
  · rfl
  · next expr _ =>
      split
      · rfl
      · exact conclude_behind earlier
          ((session.reportAll (Source.expression source).diagnostics).onMachine
            (Machine.resolve [.expression expr.token (expr.resolve [])])) _

end Behind

/-- The same session, whatever is on standard error. -/
def Alike (session other : Session) : Prop :=
  { session with errorOutput := other.errorOutput } = other

theorem Alike.behind {session other : Session} (alike : session.Alike other) :
    ∃ base : Session, session = base.behind session.errorOutput ∧
      other = base.behind other.errorOutput := by
  refine ⟨{ session with errorOutput := #[] }, ?_, ?_⟩
  · simp [Session.behind]
  · rw [← alike]
    simp [Session.behind]

theorem Alike.machine_eq {session other : Session} (alike : session.Alike other) :
    other.machine = session.machine := by
  rw [← alike]

/-- An analysis of a source does nothing but report. -/
def Reports (session after : Session) : Prop :=
  { session with
    diagnostics := after.diagnostics
    hadError := after.hadError
    errorOutput := after.errorOutput } = after

namespace Reports

variable {before middle after : Session}

protected theorem refl (session : Session) : session.Reports session := rfl

protected theorem trans (first : before.Reports middle) (second : middle.Reports after) :
    before.Reports after := by
  rw [Reports, ← second, ← first]

theorem log (session : Session) (text : Text) : session.Reports (session.log text) := by
  unfold Session.log
  split <;> rfl

theorem reportAll (session : Session) (found : List Diagnostic) :
    session.Reports (session.reportAll found) := by
  induction found generalizing session with
  | nil => exact .refl session
  | cons first rest ih =>
      have reported : session.Reports (session.report first) := rfl
      exact reported.trans (ih (session.report first))

/-- Once it is forgotten, a report is to be seen on standard error only. -/
theorem alike_reset (rests : before.reset = before) (reports : before.Reports after) :
    before.Alike after.reset := by
  rw [← reports]
  nth_rw 1 [← rests]
  rfl

end Reports

theorem parse_reports {session after : Session} {source : Text} {program : List (Stmt Unit)}
    (done : session.parse source = .done program after) : session.Reports after := by
  simp only [parse] at done
  split at done
  · cases done
  · have reported := (Reports.log session "Parsing...").trans
      (.reportAll _ (Source.program source).diagnostics)
    cases done
    split
    · exact reported
    · exact reported.trans (.log _ _)

theorem check_reports {session after : Session} {source : Text}
    {program : Option (List ResolvedStmt)} (done : session.check source = .done program after) :
    session.Reports after := by
  simp only [check] at done
  cases parsed : session.parse source with
  | fault reason middle => simp [parsed, Outcome.andThen] at done
  | exhausted => simp [parsed, Outcome.andThen] at done
  | done found middle =>
      have reported := parse_reports parsed
      have analysed := reported.trans ((Reports.log middle "Resolving...").trans
        (.reportAll _ (Stmt.programFaults found)))
      simp only [parsed, Outcome.andThen] at done
      split at done
      · cases done
        exact reported
      · split at done
        · cases done
          exact analysed
        · cases done
          exact analysed.trans (.log _ _)

end Session

end Loxley
