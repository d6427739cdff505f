import Loxley.Parser.Statement
import Loxley.Proofs.Parser.Basic

/-!
# Parsers make progress

Every rule reads on from where it starts, never past the end, and a rule that gives up has reported
why. With enough fuel for the tokens that are left, no rule runs out of it.
-/

set_option autoImplicit false

namespace Loxley

namespace Parser

variable {α β : Type}

/-- A reply that stops further on, strictly so if a value must have taken a token. -/
inductive Stops (tokens : List Token) (strict : Bool) : Reply α → Prop
  | ok {value : α} {diagnostics : List Diagnostic} {stopped : Cursor}
      (suffix : stopped.rest <:+ tokens)
      (shorter : strict = true → stopped.rest.length < tokens.length) :
      Stops tokens strict (.ok value diagnostics stopped)
  | failed {diagnostics : List Diagnostic} {stopped : Cursor} (suffix : stopped.rest <:+ tokens)
      (reported : diagnostics ≠ []) : Stops tokens strict (.failed diagnostics stopped)

theorem Stops.after {tokens : List Token} {strict : Bool} {reply : Reply α}
    (stops : Stops tokens strict reply) (earlier : List Diagnostic) :
    Stops tokens strict (reply.after earlier) := by
  cases stops with
  | ok suffix shorter => exact .ok suffix shorter
  | failed suffix reported =>
      exact .failed suffix fun none => reported (List.append_eq_nil_iff.mp none).2

theorem Stops.since {tokens earlier : List Token} {strict : Bool} {reply : Reply α}
    (stops : Stops tokens strict reply) (suffix : tokens <:+ earlier) :
    Stops earlier strict reply := by
  cases stops with
  | ok further shorter =>
      exact .ok (further.trans suffix) fun isStrict =>
        Nat.lt_of_lt_of_le (shorter isStrict) suffix.length_le
  | failed further reported => exact .failed (further.trans suffix) reported

theorem Stops.sinceShorter {tokens earlier : List Token} {strict : Bool} {reply : Reply α}
    (stops : Stops tokens false reply) (suffix : tokens <:+ earlier)
    (shorter : tokens.length < earlier.length) : Stops earlier strict reply := by
  cases stops with
  | ok further _ =>
      exact .ok (further.trans suffix) fun _ => Nat.lt_of_le_of_lt further.length_le shorter
  | failed further reported => exact .failed (further.trans suffix) reported

/-- A rule stops further on wherever at most so many tokens are left. -/
def Advances (strict : Bool) (bound : Nat) (rule : Parser α) : Prop :=
  ∀ cursor : Cursor, cursor.rest.length ≤ bound → Stops cursor.rest strict (rule cursor)

variable {bound : Nat} {strict : Bool} {rule : Parser α} {next : α → Parser β}

theorem advances_pure (bound : Nat) (value : α) : Advances false bound (pure value : Parser α) :=
  fun _ _ => .ok (List.suffix_refl _) nofun

theorem advances_report (bound : Nat) (token : Token) (problem : Problem) :
    Advances false bound (report token problem) :=
  fun _ _ => .ok (List.suffix_refl _) nofun

theorem advances_reportHere (bound : Nat) (problem : Problem) :
    Advances false bound (reportHere problem) :=
  fun _ _ => .ok (List.suffix_refl _) nofun

theorem advances_fail (strict : Bool) (bound : Nat) (expectation : Expectation) :
    Advances strict bound (fail expectation : Parser α) :=
  fun _ _ => .failed (List.suffix_refl _) (List.cons_ne_nil _ _)

theorem advances_nextIs (bound : Nat) (kind : TokenKind) : Advances false bound (nextIs kind) :=
  fun _ _ => .ok (List.suffix_refl _) nofun

theorem Advances.bind (first : Advances false bound rule)
    (second : ∀ value, Advances strict bound (next value)) :
    Advances strict bound (rule >>= next) := by
  intro cursor within
  have stops := first cursor within
  rw [bind_apply]
  generalize rule cursor = reply at stops
  cases stops with
  | @ok value _ stopped suffix _ =>
      have later := second value stopped (Nat.le_trans suffix.length_le within)
      exact (later.since suffix).after _
  | failed suffix reported => exact .failed suffix reported

/-- After a rule that takes a token, there are fewer left. -/
theorem Advances.bindStrict (first : Advances true bound rule)
    (second : ∀ value fewer, fewer < bound → Advances false fewer (next value)) :
    Advances strict bound (rule >>= next) := by
  intro cursor within
  have stops := first cursor within
  rw [bind_apply]
  generalize rule cursor = reply at stops
  cases stops with
  | @ok value _ stopped suffix shorter =>
      have fewer := Nat.lt_of_lt_of_le (shorter rfl) within
      have later := second value _ fewer stopped (Nat.le_refl _)
      exact (later.sinceShorter suffix (shorter rfl)).after _
  | failed suffix reported => exact .failed suffix reported

theorem Advances.weaken (advances : Advances true bound rule) : Advances false bound rule := by
  intro cursor within
  have stops := advances cursor within
  generalize rule cursor = reply at stops
  cases stops with
  | ok suffix _ => exact .ok suffix nofun
  | failed suffix reported => exact .failed suffix reported

private theorem suffix_tail {tokens rest : List Token} {token : Token}
    (shape : tokens = token :: rest) : rest <:+ tokens ∧ rest.length < tokens.length := by
  subst shape
  exact ⟨List.suffix_cons token rest, Nat.lt_succ_self _⟩

theorem advances_acceptBy_bind {choose : TokenKind → Option α}
    {next : Option (Token × α) → Parser β} (absent : Advances strict bound (next none))
    (present : ∀ accepted fewer, fewer < bound → Advances false fewer (next (some accepted))) :
    Advances strict bound (acceptBy choose >>= next) := by
  intro cursor within
  rw [bind_apply]
  rcases acceptBy_cases choose cursor with ⟨_, none⟩ | ⟨token, rest, choice, shape, _, some⟩
  · rw [none]
    exact (absent cursor within).after []
  · obtain ⟨suffix, shorter⟩ := suffix_tail shape
    rw [some]
    have later := present (token, choice) rest.length (Nat.lt_of_lt_of_le shorter within)
      { cursor with rest } (Nat.le_refl _)
    exact (later.sinceShorter suffix shorter).after []

theorem advances_accept_bind {kind : TokenKind} {next : Option Token → Parser β}
    (absent : Advances strict bound (next none))
    (present : ∀ token fewer, fewer < bound → Advances false fewer (next (some token))) :
    Advances strict bound (accept kind >>= next) := by
  intro cursor within
  rw [bind_apply]
  rcases accept_cases kind cursor with ⟨_, none⟩ | ⟨token, rest, shape, _, some⟩
  · rw [none]
    exact (absent cursor within).after []
  · obtain ⟨suffix, shorter⟩ := suffix_tail shape
    rw [some]
    have later := present token rest.length (Nat.lt_of_lt_of_le shorter within)
      { cursor with rest } (Nat.le_refl _)
    exact (later.sinceShorter suffix shorter).after []

theorem advances_accept (bound : Nat) (kind : TokenKind) : Advances false bound (accept kind) := by
  intro cursor within
  rcases accept_cases kind cursor with ⟨_, none⟩ | ⟨token, rest, shape, _, some⟩
  · rw [none]
    exact .ok (List.suffix_refl _) nofun
  · rw [some]
    exact .ok (suffix_tail shape).1 nofun

theorem advances_require (bound : Nat) (kind : TokenKind) (expectation : Expectation) :
    Advances true bound (require kind expectation) := by
  intro cursor within
  rcases require_cases kind expectation cursor with ⟨_, failed⟩ | ⟨token, rest, shape, _, given⟩
  · rw [failed]
    exact .failed (List.suffix_refl _) (List.cons_ne_nil _ _)
  · obtain ⟨suffix, shorter⟩ := suffix_tail shape
    rw [given]
    exact .ok suffix fun _ => shorter

/-- With so much fuel per token that is left, the rules for expressions do not run out of it. -/
structure AdequateExpr (fuel : Nat) : Prop where
  expression : ∀ bound, 20 * bound + 10 ≤ fuel → Advances true bound (expression fuel)
  chain : ∀ bound strength, strength ≤ Connective.tightest + 1 →
    20 * bound + 10 ≤ fuel + strength → Advances true bound (chain fuel strength)
  chainRest : ∀ bound strength left, strength ≤ Connective.tightest → 20 * bound + 1 ≤ fuel →
    Advances false bound (chainRest fuel strength left)
  unary : ∀ bound, 20 * bound + 2 ≤ fuel → Advances true bound (unary fuel)
  callRest : ∀ bound callee, 20 * bound + 1 ≤ fuel → Advances false bound (callRest fuel callee)
  argumentsFrom : ∀ bound earlier, 20 * bound + 11 ≤ fuel →
    Advances true bound (argumentsFrom fuel earlier)
  primary : ∀ bound, 20 * bound + 1 ≤ fuel → Advances true bound (primary fuel)

namespace AdequateExpr

variable {fuel : Nat}

private theorem expression_succ (ih : AdequateExpr fuel)
    (enough : 20 * bound + 10 ≤ fuel + 1) : Advances true bound (Parser.expression (fuel + 1)) := by
  refine (ih.chain bound 1 (by decide) enough).bindStrict fun target fewer less => ?_
  refine advances_accept_bind (advances_pure fewer target) fun equals least lesser => ?_
  refine (ih.expression least (by omega)).weaken.bind fun value => ?_
  cases target
  case ident name reference => exact advances_pure _ _
  all_goals exact (advances_report least _ _).bind fun _ => advances_pure _ _

private theorem chain_succ (ih : AdequateExpr fuel) {strength : Nat}
    (valid : strength ≤ Connective.tightest + 1) (enough : 20 * bound + 10 ≤ fuel + 1 + strength) :
    Advances true bound (Parser.chain (fuel + 1) strength) := by
  have tightest : Connective.tightest = 6 := rfl
  unfold Parser.chain
  split
  · next within =>
      refine (ih.chain bound (strength + 1) (by omega) (by omega)).bindStrict
        fun first fewer less => ?_
      exact ih.chainRest fewer strength first within (by omega)
  · exact ih.unary bound (by omega)

private theorem chainRest_succ (ih : AdequateExpr fuel) {strength : Nat} {left : Expr Unit}
    (within : strength ≤ Connective.tightest) (enough : 20 * bound + 1 ≤ fuel + 1) :
    Advances false bound (Parser.chainRest (fuel + 1) strength left) := by
  refine advances_acceptBy_bind (advances_pure bound left) fun accepted fewer less => ?_
  refine (ih.chain fewer (strength + 1) (by omega) (by omega)).bindStrict
    fun right least lesser => ?_
  exact ih.chainRest least strength _ within (by omega)

private theorem unary_succ (ih : AdequateExpr fuel) (enough : 20 * bound + 2 ≤ fuel + 1) :
    Advances true bound (Parser.unary (fuel + 1)) := by
  refine advances_acceptBy_bind ?_ fun accepted fewer less => ?_
  · refine (ih.primary bound (by omega)).bindStrict fun callee fewer less => ?_
    exact ih.callRest fewer callee (by omega)
  · exact (ih.unary fewer (by omega)).weaken.bind fun operand => advances_pure _ _

private theorem callRest_succ (ih : AdequateExpr fuel) {callee : Expr Unit}
    (enough : 20 * bound + 1 ≤ fuel + 1) :
    Advances false bound (Parser.callRest (fuel + 1) callee) := by
  refine advances_accept_bind (advances_pure bound callee) fun opening fewer less => ?_
  have closed : ∀ arguments : List (Expr Unit), Advances false fewer
      (do
        let paren ← require (.symbol .rightParen) .parenAfterArguments
        Parser.callRest fuel (.call paren callee arguments)) := fun arguments =>
    (advances_require fewer _ _).bindStrict fun paren least lesser =>
      ih.callRest least _ (by omega)
  refine (advances_nextIs fewer _).bind fun isEmpty => ?_
  split
  · exact (advances_pure fewer _).bind closed
  · exact (ih.argumentsFrom fewer 0 (by omega)).weaken.bind closed

private theorem argumentsFrom_succ (ih : AdequateExpr fuel) {earlier : Nat}
    (enough : 20 * bound + 11 ≤ fuel + 1) :
    Advances true bound (Parser.argumentsFrom (fuel + 1) earlier) := by
  unfold Parser.argumentsFrom
  split
  -- One argument too many is reported, and then read like the others.
  case' isTrue => refine (advances_reportHere bound _).bind fun _ => ?_
  all_goals
    refine (ih.expression bound (by omega)).bindStrict fun first fewer less => ?_
    refine advances_accept_bind (advances_pure fewer _) fun comma least lesser => ?_
    exact (ih.argumentsFrom least (earlier + 1) (by omega)).weaken.bind fun others =>
      advances_pure _ _

private theorem primary_succ (ih : AdequateExpr fuel) (enough : 20 * bound + 1 ≤ fuel + 1) :
    Advances true bound (Parser.primary (fuel + 1)) := by
  intro cursor within
  have failed : Stops cursor.rest true (fail .expression cursor : Reply (Expr Unit)) :=
    advances_fail true bound .expression cursor within
  unfold Parser.primary
  cases shape : cursor.rest with
  | nil => rwa [shape] at failed
  | cons token rest =>
      obtain ⟨suffix, shorter⟩ := suffix_tail shape
      rw [shape] at suffix shorter within failed
      simp only
      split
      · exact .ok suffix fun _ => shorter
      · split
        · exact .ok suffix fun _ => shorter
        · split
          · have inside : Advances false rest.length
                (do
                  let inner ← Parser.expression fuel
                  let _ ← require (.symbol .rightParen) .parenAfterExpression
                  pure (.group token inner) : Parser (Expr Unit)) := by
              simp only [List.length_cons] at within
              refine (ih.expression rest.length (by omega)).weaken.bind fun inner => ?_
              exact (advances_require _ _ _).weaken.bind fun _ => advances_pure _ _
            exact (inside { cursor with rest } (Nat.le_refl _)).sinceShorter suffix shorter
          · exact failed

end AdequateExpr

theorem adequateExpr (fuel : Nat) : AdequateExpr fuel := by
  induction fuel with
  | zero =>
      have tightest : Connective.tightest = 6 := rfl
      constructor <;> intros <;> omega
  | succ fuel ih =>
      constructor
      · intros; exact ih.expression_succ ‹_›
      · intros; exact ih.chain_succ ‹_› ‹_›
      · intros; exact ih.chainRest_succ ‹_› ‹_›
      · intros; exact ih.unary_succ ‹_›
      · intros; exact ih.callRest_succ ‹_›
      · intros; exact ih.argumentsFrom_succ ‹_›
      · intros; exact ih.primary_succ ‹_›

section Statements

variable {fuel : Nat}

theorem advances_optionalExpression (enough : 20 * bound + 10 ≤ fuel) (absent : TokenKind) :
    Advances false bound (optionalExpression fuel absent) := by
  refine (advances_nextIs bound absent).bind fun isAbsent => ?_
  split
  · exact advances_pure _ _
  · exact ((adequateExpr fuel).expression bound enough).weaken.bind fun _ => advances_pure _ _

theorem advances_expressionStatement (enough : 20 * bound + 10 ≤ fuel) :
    Advances true bound (expressionStatement fuel) :=
  ((adequateExpr fuel).expression bound enough).bindStrict fun _ fewer _ =>
    (advances_require fewer _ _).weaken.bind fun _ => advances_pure _ _

theorem advances_variableDeclaration (enough : 20 * bound + 10 ≤ fuel) :
    Advances true bound (variableDeclaration fuel) := by
  refine (advances_require bound _ _).bindStrict fun name fewer less => ?_
  refine advances_accept_bind ?_ fun equals least lesser => ?_
  · exact (advances_require fewer _ _).weaken.bind fun _ => advances_pure _ _
  · refine ((adequateExpr fuel).expression least (by omega)).weaken.bind fun value => ?_
    exact (advances_require least _ _).weaken.bind fun _ => advances_pure _ _

theorem advances_printStatement (enough : 20 * bound + 10 ≤ fuel) (keyword : Token) :
    Advances false bound (printStatement fuel keyword) :=
  ((adequateExpr fuel).expression bound enough).weaken.bind fun _ =>
    (advances_require bound _ _).weaken.bind fun _ => advances_pure _ _

theorem advances_returnStatement (enough : 20 * bound + 10 ≤ fuel) (keyword : Token) :
    Advances false bound (returnStatement fuel keyword) :=
  (advances_optionalExpression enough _).bind fun _ =>
    (advances_require bound _ _).weaken.bind fun _ => advances_pure _ _

theorem advances_ifStatement (enough : 20 * bound + 10 ≤ fuel) {branch : Parser (Stmt Unit)}
    (branches : Advances false bound branch) (keyword : Token) :
    Advances false bound (ifStatement fuel branch keyword) := by
  refine (advances_require bound _ _).weaken.bind fun _ => ?_
  refine ((adequateExpr fuel).expression bound enough).weaken.bind fun test => ?_
  refine (advances_require bound _ _).weaken.bind fun _ => branches.bind fun consequent => ?_
  refine (advances_accept bound _).bind fun accepted => ?_
  cases accepted with
  | none => exact advances_pure _ _
  | some _ => exact branches.bind fun alternative => advances_pure _ _

theorem advances_whileStatement (enough : 20 * bound + 10 ≤ fuel) {branch : Parser (Stmt Unit)}
    (branches : Advances false bound branch) (keyword : Token) :
    Advances false bound (whileStatement fuel branch keyword) := by
  refine (advances_require bound _ _).weaken.bind fun _ => ?_
  refine ((adequateExpr fuel).expression bound enough).weaken.bind fun test => ?_
  refine (advances_require bound _ _).weaken.bind fun _ => branches.bind fun body => ?_
  exact advances_pure _ _

theorem advances_forInitializer (enough : 20 * bound + 10 ≤ fuel) :
    Advances false bound (forInitializer fuel) := by
  refine (advances_accept bound _).bind fun isEmpty => ?_
  cases isEmpty with
  | some _ => exact advances_pure _ _
  | none =>
      refine (advances_accept bound _).bind fun isVariable => ?_
      cases isVariable with
      | some _ =>
          exact (advances_variableDeclaration enough).weaken.bind fun _ => advances_pure _ _
      | none =>
          exact (advances_expressionStatement enough).weaken.bind fun _ => advances_pure _ _

theorem advances_forStatement (enough : 20 * bound + 10 ≤ fuel) {branch : Parser (Stmt Unit)}
    (branches : Advances false bound branch) (keyword : Token) :
    Advances false bound (forStatement fuel branch keyword) := by
  refine (advances_require bound _ _).weaken.bind fun _ => ?_
  refine (advances_forInitializer enough).bind fun initializer => ?_
  refine (advances_optionalExpression enough _).bind fun test => ?_
  refine (advances_require bound _ _).weaken.bind fun _ => ?_
  refine (advances_optionalExpression enough _).bind fun increment => ?_
  refine (advances_require bound _ _).weaken.bind fun _ => branches.bind fun body => ?_
  exact advances_pure _ _

theorem advances_parametersFrom (enough : 20 * bound + 1 ≤ fuel) (earlier : Nat) :
    Advances false bound (parametersFrom fuel earlier) := by
  induction fuel generalizing bound earlier with
  | zero => omega
  | succ fuel ih =>
      unfold parametersFrom
      split
      case' isTrue => refine (advances_reportHere bound _).bind fun _ => ?_
      all_goals
        refine (advances_require bound _ _).bindStrict fun first fewer less => ?_
        refine advances_accept_bind (advances_pure fewer _) fun comma least lesser => ?_
        exact (ih (by omega) (earlier + 1)).bind fun others => advances_pure _ _

theorem advances_functionDeclaration (enough : 20 * bound + 10 ≤ fuel)
    {block : Parser (List (Stmt Unit))} (blocks : Advances false bound block) :
    Advances false bound (functionDeclaration fuel block) := by
  have finished : ∀ name parameters, Advances false bound
      (do
        let _ ← require (.symbol .rightParen) .parenAfterParameters
        let _ ← require (.symbol .leftBrace) .braceBeforeBody
        let body ← block
        pure (.function name parameters body) : Parser (Stmt Unit)) := fun name parameters =>
    (advances_require bound _ _).weaken.bind fun _ =>
      (advances_require bound _ _).weaken.bind fun _ => blocks.bind fun body => advances_pure _ _
  refine (advances_require bound _ _).weaken.bind fun name => ?_
  refine (advances_require bound _ _).weaken.bind fun _ => ?_
  refine (advances_nextIs bound _).bind fun isEmpty => ?_
  split
  · exact (advances_pure bound _).bind (finished name)
  · exact (advances_parametersFrom (by omega) 0).bind (finished name)

theorem skipPast_suffix (skipped : Token) (tokens : List Token) :
    skipPast skipped tokens <:+ tokens := by
  induction tokens generalizing skipped with
  | nil => exact List.suffix_refl _
  | cons next rest ih =>
      unfold skipPast
      split
      · exact List.suffix_refl _
      · exact (ih next).trans (List.suffix_cons next rest)

theorem synchronize_suffix (tokens : List Token) : synchronize tokens <:+ tokens := by
  cases tokens with
  | nil => exact List.suffix_refl _
  | cons token rest => exact (skipPast_suffix token rest).trans (List.suffix_cons token rest)

/-- Skipping takes a token unless none is left. -/
theorem length_synchronize_lt {tokens earlier : List Token} (suffix : tokens <:+ earlier)
    (nonempty : earlier ≠ []) : (synchronize tokens).length < earlier.length := by
  cases tokens with
  | nil => exact List.length_pos_iff.mpr nonempty
  | cons token rest =>
      exact Nat.lt_of_lt_of_le (Nat.lt_succ_of_le (skipPast_suffix token rest).length_le)
        suffix.length_le

/-- Before the end, a rule always takes a token, and it gives up nowhere. -/
def Consumes (bound : Nat) (rule : Parser α) : Prop :=
  ∀ cursor : Cursor, cursor.rest.length ≤ bound → cursor.rest ≠ [] →
    ∃ value diagnostics stopped, rule cursor = .ok value diagnostics stopped ∧
      stopped.rest <:+ cursor.rest ∧ stopped.rest.length < cursor.rest.length

theorem Advances.recovering {rule : Parser α} (advances : Advances true bound rule) :
    Consumes bound (recovering rule) := by
  intro cursor within nonempty
  have stops := advances cursor within
  unfold Parser.recovering
  generalize rule cursor = reply at stops
  cases stops with
  | ok suffix shorter => exact ⟨_, _, _, rfl, suffix, shorter rfl⟩
  | failed suffix _ =>
      exact ⟨_, _, _, rfl, (synchronize_suffix _).trans suffix,
        length_synchronize_lt suffix nonempty⟩

/-- The same of the rules for statements. -/
structure AdequateStmt (fuel : Nat) : Prop where
  declaration : ∀ bound, 20 * bound + 12 ≤ fuel → Consumes bound (declaration fuel)
  statement : ∀ bound, 20 * bound + 11 ≤ fuel → Advances true bound (statement fuel)
  block : ∀ bound, 20 * bound + 13 ≤ fuel → Advances false bound (block fuel)

namespace AdequateStmt

/-- A declaration before it recovers. -/
theorem unrecovered (ih : AdequateStmt fuel) (enough : 20 * bound + 12 ≤ fuel + 1) :
    Advances true bound
      (do
        match ← accept (.keyword .funWord) with
        | some _ => functionDeclaration fuel (Parser.block fuel)
        | none =>
          match ← accept (.keyword .varWord) with
          | some _ => variableDeclaration fuel
          | none => Parser.statement fuel) := by
  refine advances_accept_bind ?_ fun _ fewer less => ?_
  · refine advances_accept_bind (ih.statement bound (by omega)) fun _ fewer less => ?_
    exact (advances_variableDeclaration (by omega)).weaken
  · exact advances_functionDeclaration (by omega) (ih.block fewer (by omega))

private theorem declaration_succ (ih : AdequateStmt fuel) (enough : 20 * bound + 12 ≤ fuel + 1) :
    Consumes bound (Parser.declaration (fuel + 1)) :=
  Advances.recovering (ih.unrecovered enough)

private theorem statement_succ (ih : AdequateStmt fuel) (enough : 20 * bound + 11 ≤ fuel + 1) :
    Advances true bound (Parser.statement (fuel + 1)) := by
  refine advances_acceptBy_bind (advances_expressionStatement (by omega))
    fun accepted fewer less => ?_
  have branches := (ih.statement fewer (by omega)).weaken
  match accepted with
  | (token, .forLoop) => exact advances_forStatement (by omega) branches token
  | (token, .conditional) => exact advances_ifStatement (by omega) branches token
  | (token, .print) => exact advances_printStatement (by omega) token
  | (token, .giveBack) => exact advances_returnStatement (by omega) token
  | (token, .whileLoop) => exact advances_whileStatement (by omega) branches token
  | (token, .block) => exact (ih.block fewer (by omega)).bind fun body => advances_pure _ _

private theorem block_succ (ih : AdequateStmt fuel) (enough : 20 * bound + 13 ≤ fuel + 1) :
    Advances false bound (Parser.block (fuel + 1)) := by
  intro cursor within
  simp only [Parser.block, bind_apply, nextIs, atEnd, Reply.after_nil]
  split
  · exact ((advances_require bound _ _).weaken.bind fun _ => advances_pure _ _) cursor within
  · next continues =>
      have nonempty : cursor.rest ≠ [] := fun none => continues (by simp [none])
      obtain ⟨first, diagnostics, stopped, declared, suffix, shorter⟩ :=
        ih.declaration bound (by omega) cursor within nonempty
      have fewer := Nat.lt_of_lt_of_le shorter within
      have later := (ih.block stopped.rest.length (by omega)).bind fun others =>
        advances_pure _ (first.toList ++ others)
      simp only [bind_apply, declared]
      exact ((later stopped (Nat.le_refl _)).since suffix).after _

end AdequateStmt

theorem adequateStmt (fuel : Nat) : AdequateStmt fuel := by
  induction fuel with
  | zero => constructor <;> intros <;> omega
  | succ fuel ih =>
      constructor
      · intros; exact ih.declaration_succ ‹_›
      · intros; exact ih.statement_succ ‹_›
      · intros; exact ih.block_succ ‹_›

/-- A program is read up to the end, whatever is wrong with it. -/
theorem program_eq_ok (enough : 20 * bound + 13 ≤ fuel) {cursor : Cursor}
    (within : cursor.rest.length ≤ bound) :
    ∃ value diagnostics stopped, program fuel cursor = .ok value diagnostics stopped ∧
      stopped.rest = [] := by
  induction fuel generalizing bound cursor with
  | zero => omega
  | succ fuel ih =>
      simp only [program, bind_apply, atEnd, Reply.after_nil]
      split
      · next isEnd => exact ⟨_, _, _, rfl, List.isEmpty_iff.mp isEnd⟩
      · next continues =>
          have nonempty : cursor.rest ≠ [] := fun none => continues (by simp [none])
          obtain ⟨first, diagnostics, stopped, declared, suffix, shorter⟩ :=
            (adequateStmt fuel).declaration bound (by omega) cursor within nonempty
          have fewer := Nat.lt_of_lt_of_le shorter within
          obtain ⟨others, later, finished, parsed, isEnd⟩ :=
            ih (show 20 * stopped.rest.length + 13 ≤ fuel by omega) (Nat.le_refl _)
          simp only [bind_apply, declared, parsed, Reply.after, pure_apply]
          exact ⟨_, _, _, rfl, isEnd⟩

end Statements

end Parser

end Loxley
