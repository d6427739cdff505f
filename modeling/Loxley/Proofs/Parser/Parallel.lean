import Loxley.Proofs.Parser.Completeness

/-!
# Two runs of the parser side by side

What a rule makes of two token streams that start alike. As long as both runs are inside the part
that the streams have in common, they see the same tokens, so they give the same values and
diagnostics and stop at places that match. Only a semicolon may lead past that part. The first of
the two runs may have less fuel than the second, and run out of it.
-/

set_option autoImplicit false

namespace Loxley

variable {α β : Type}

/-- A reply and one with at least as much fuel that says the same and stops at a matching place. -/
inductive Reply.Matches (ok failed : Cursor → Cursor → Prop) : Reply α → Reply α → Prop
  | ok {value : α} {diagnostics : List Diagnostic} {stopped place : Cursor}
      (here : ok stopped place) :
      Matches ok failed (.ok value diagnostics stopped) (.ok value diagnostics place)
  | failed {diagnostics : List Diagnostic} {stopped place : Cursor} (here : failed stopped place) :
      Matches ok failed (.failed diagnostics stopped) (.failed diagnostics place)
  | exhausted {reply : Reply α} : Matches ok failed .exhausted reply

theorem Reply.Matches.after {ok failed : Cursor → Cursor → Prop} {reply other : Reply α}
    (same : reply.Matches ok failed other) (earlier : List Diagnostic) :
    (reply.after earlier).Matches ok failed (other.after earlier) := by
  cases same with
  | ok here => exact .ok here
  | failed here => exact .failed here
  | exhausted => exact .exhausted

namespace Parser

/--
Pairs of positions in two token streams: those inside the part that the streams have in common, and
those right after a semicolon. A stream with a `for` loop or a block goes on after a semicolon as
before.
-/
structure Aligned (inside past : Cursor → Cursor → Prop) : Prop where
  peek : ∀ {cursor place : Cursor}, inside cursor place → place.peek = cursor.peek
  head : ∀ {cursor place : Cursor}, inside cursor place → place.rest.head? = cursor.rest.head?
  next : ∀ {token finish last : Token} {rest others : List Token},
    inside ⟨token :: rest, finish⟩ ⟨token :: others, last⟩ → token.kind ≠ .symbol .semicolon →
    inside ⟨rest, finish⟩ ⟨others, last⟩
  ends : ∀ {token finish last : Token} {rest others : List Token},
    inside ⟨token :: rest, finish⟩ ⟨token :: others, last⟩ → token.kind = .symbol .semicolon →
    past ⟨rest, finish⟩ ⟨others, last⟩
  whole : ∀ {cursor place : Cursor} {token : Token}, inside cursor place →
    token ∈ cursor.rest.head? →
    token.kind = .keyword .forWord ∨ token.kind = .symbol .leftBrace → past = inside
  noElse : ∀ {cursor place : Cursor}, past cursor place → inside cursor place ∨
    (∀ token ∈ cursor.rest.head?, token.kind ≠ .keyword .elseWord) ∧
      ∀ token ∈ place.rest.head?, token.kind ≠ .keyword .elseWord
  synchronized : ∀ {cursor place : Cursor}, inside cursor place →
    inside { cursor with rest := synchronize cursor.rest }
        { place with rest := synchronize place.rest } ∨
      past { cursor with rest := synchronize cursor.rest }
        { place with rest := synchronize place.rest }

/-- A token stands at some position inside the common part. -/
def Heads (inside : Cursor → Cursor → Prop) (token : Token) : Prop :=
  ∃ cursor place, inside cursor place ∧ token ∈ cursor.rest.head?

/-- Taking a token of a kind leads from positions inside the common part to certain others. -/
def Leads (inside : Cursor → Cursor → Prop) (kind : TokenKind)
    (after : Cursor → Cursor → Prop) : Prop :=
  ∀ {token finish last : Token} {rest others : List Token},
    inside ⟨token :: rest, finish⟩ ⟨token :: others, last⟩ → token.kind = kind →
    after ⟨rest, finish⟩ ⟨others, last⟩

/--
From positions of one kind, a rule and one with at least as much fuel give the same and lead to
positions of another kind. Where they give up, they are still inside the common part.
-/
def Tracks (inside start ok : Cursor → Cursor → Prop) (rule other : Parser α) : Prop :=
  ∀ cursor place : Cursor, start cursor place → (rule cursor).Matches ok inside (other place)

section Combinators

variable {inside past start middle ok : Cursor → Cursor → Prop} {rule other : Parser α}
  {next following : α → Parser β}

theorem Aligned.leads (aligned : Aligned inside past) {kind : TokenKind}
    (different : kind ≠ .symbol .semicolon) : Leads inside kind inside :=
  fun here same => aligned.next here (same ▸ different)

theorem Aligned.leadsPast (aligned : Aligned inside past) :
    Leads inside (.symbol .semicolon) past :=
  fun here same => aligned.ends here same

/-- Both streams are at their ends, or both go on with the same token. -/
theorem Aligned.shape (aligned : Aligned inside past) {cursor place : Cursor}
    (here : inside cursor place) :
    (cursor.rest = [] ∧ place.rest = []) ∨ ∃ token rest others finish last,
      cursor = ⟨token :: rest, finish⟩ ∧ place = ⟨token :: others, last⟩ ∧
        Heads inside token := by
  have same := aligned.head here
  obtain ⟨tokens, finish⟩ := cursor
  obtain ⟨words, last⟩ := place
  cases tokens with
  | nil => exact .inl ⟨rfl, List.head?_eq_none_iff.mp same⟩
  | cons token rest =>
      cases words with
      | nil => cases same
      | cons word others =>
          cases Option.some.inj same
          exact .inr ⟨token, rest, others, finish, last, rfl, rfl, _, _, here, rfl⟩

theorem tracks_pure {value : α} :
    Tracks inside start start (pure value : Parser α) (pure value) :=
  fun _ _ here => .ok here

theorem tracks_report {token : Token} {problem : Problem} :
    Tracks inside start start (report token problem) (report token problem) :=
  fun _ _ here => .ok here

theorem Tracks.bind (first : Tracks inside start middle rule other)
    (second : ∀ value, Tracks inside middle ok (next value) (following value)) :
    Tracks inside start ok (rule >>= next) (other >>= following) := by
  intro cursor place here
  have same := first cursor place here
  rw [bind_apply, bind_apply]
  generalize rule cursor = reply at same
  generalize other place = answer at same
  cases same with
  | @ok value diagnostics stopped place here => exact (second value stopped place here).after _
  | failed here => exact .failed here
  | exhausted => exact .exhausted

theorem Aligned.reportHere (aligned : Aligned inside past) (problem : Problem) :
    Tracks inside inside inside (reportHere problem) (reportHere problem) := by
  intro cursor place here
  rw [Parser.reportHere, Parser.reportHere, aligned.peek here]
  exact .ok here

theorem Aligned.fail (aligned : Aligned inside past) (expectation : Expectation) :
    Tracks inside inside ok (fail expectation : Parser α) (fail expectation) := by
  intro cursor place here
  rw [Parser.fail, Parser.fail, aligned.peek here]
  exact .failed here

theorem Aligned.nextIs (aligned : Aligned inside past) (kind : TokenKind) :
    Tracks inside inside inside (nextIs kind) (nextIs kind) := by
  intro cursor place here
  rw [Parser.nextIs, Parser.nextIs, aligned.head here]
  exact .ok here

theorem Aligned.atEnd (aligned : Aligned inside past) :
    Tracks inside inside inside atEnd atEnd := by
  intro cursor place here
  rw [Parser.atEnd, Parser.atEnd]
  rcases aligned.shape here with ⟨none, nothing⟩ | ⟨_, _, _, _, _, rfl, rfl, _⟩
  · rw [none, nothing]
    exact .ok here
  · exact .ok here

theorem Aligned.acceptBy_bind (aligned : Aligned inside past) {choose : TokenKind → Option α}
    (goesOn : choose (.symbol .semicolon) = none)
    {next following : Option (Token × α) → Parser β}
    (absent : Tracks inside inside ok (next none) (following none))
    (present : ∀ token choice, Heads inside token → choose token.kind = some choice →
      Tracks inside inside ok (next (some (token, choice))) (following (some (token, choice)))) :
    Tracks inside inside ok (acceptBy choose >>= next) (acceptBy choose >>= following) := by
  intro cursor place here
  rw [bind_apply, bind_apply]
  rcases aligned.shape here with
    ⟨none, nothing⟩ | ⟨token, rest, others, finish, last, rfl, rfl, heads⟩
  · simp only [acceptBy, none, nothing]
    exact (absent cursor place here).after []
  · cases chosen : choose token.kind with
    | none =>
        simp only [acceptBy, chosen]
        exact (absent _ _ here).after []
    | some choice =>
        have different : token.kind ≠ .symbol .semicolon := by
          intro same
          rw [same, goesOn] at chosen
          cases chosen
        simp only [acceptBy, chosen]
        exact (present token choice heads chosen _ _ (aligned.next here different)).after []

theorem Aligned.accept_bind (aligned : Aligned inside past) {kind : TokenKind}
    (leads : Leads inside kind middle) {next following : Option Token → Parser β}
    (absent : Tracks inside inside ok (next none) (following none))
    (present : ∀ token, Tracks inside middle ok (next (some token)) (following (some token))) :
    Tracks inside inside ok (accept kind >>= next) (accept kind >>= following) := by
  intro cursor place here
  rw [bind_apply, bind_apply]
  rcases aligned.shape here with ⟨none, nothing⟩ | ⟨token, rest, others, finish, last, rfl, rfl, _⟩
  · simp only [accept, none, nothing]
    exact (absent cursor place here).after []
  · by_cases same : token.kind = kind
    · simp only [accept, same, if_true]
      exact (present token _ _ (leads here same)).after []
    · simp only [accept, same, if_false]
      exact (absent _ _ here).after []

theorem Aligned.require_bind (aligned : Aligned inside past) {kind : TokenKind}
    {expectation : Expectation} (leads : Leads inside kind middle)
    {next following : Token → Parser β}
    (present : ∀ token, Heads inside token → token.kind = kind →
      Tracks inside middle ok (next token) (following token)) :
    Tracks inside inside ok (require kind expectation >>= next)
      (require kind expectation >>= following) := by
  intro cursor place here
  rw [bind_apply, bind_apply]
  rcases require_cases kind expectation cursor with
    ⟨others, failed⟩ | ⟨token, rest, shape, same, given⟩
  · have othersToo : ∀ token ∈ place.rest.head?, token.kind ≠ kind := by
      rw [aligned.head here]
      exact others
    rcases require_cases kind expectation place with ⟨_, failedToo⟩ | ⟨token, rest, shape, same, _⟩
    · rw [failed, failedToo, aligned.peek here]
      exact .failed here
    · exact absurd same (othersToo token (by rw [shape]; rfl))
  · rcases aligned.shape here with ⟨none, _⟩ | ⟨token, rest, others, finish, last, rfl, rfl, heads⟩
    · rw [none] at shape
      cases shape
    · cases shape
      rw [given]
      rcases require_cases kind expectation ⟨token :: others, last⟩ with
        ⟨different, _⟩ | ⟨_, _, shape, _, givenToo⟩
      · exact absurd same (different token rfl)
      · cases shape
        rw [givenToo]
        exact (present token heads same _ _ (leads here same)).after []

end Combinators

section Expressions

variable {inside past : Cursor → Cursor → Prop}

/-- The rules for expressions never leave the common part. -/
structure TracksExpr (inside : Cursor → Cursor → Prop) (fuel more : Nat) : Prop where
  expression : Tracks inside inside inside (expression fuel) (expression more)
  chain : ∀ strength, Tracks inside inside inside (chain fuel strength) (chain more strength)
  chainRest : ∀ strength left,
    Tracks inside inside inside (chainRest fuel strength left) (chainRest more strength left)
  unary : Tracks inside inside inside (unary fuel) (unary more)
  callRest : ∀ callee, Tracks inside inside inside (callRest fuel callee) (callRest more callee)
  argumentsFrom : ∀ earlier,
    Tracks inside inside inside (argumentsFrom fuel earlier) (argumentsFrom more earlier)
  primary : Tracks inside inside inside (primary fuel) (primary more)

namespace TracksExpr

variable {fuel more : Nat}

private theorem expression_succ (aligned : Aligned inside past) (ih : TracksExpr inside fuel more) :
    Tracks inside inside inside (Parser.expression (fuel + 1)) (Parser.expression (more + 1)) := by
  refine (ih.chain 1).bind fun target => ?_
  refine aligned.accept_bind (aligned.leads (by simp)) tracks_pure
    fun equals => ?_
  refine ih.expression.bind fun value => ?_
  cases target
  case ident name reference => exact tracks_pure
  all_goals exact tracks_report.bind fun _ => tracks_pure

private theorem chain_succ (ih : TracksExpr inside fuel more) (strength : Nat) :
    Tracks inside inside inside (Parser.chain (fuel + 1) strength)
      (Parser.chain (more + 1) strength) := by
  unfold Parser.chain
  split
  · exact (ih.chain (strength + 1)).bind fun first => ih.chainRest strength first
  · exact ih.unary

private theorem chainRest_succ (aligned : Aligned inside past) (ih : TracksExpr inside fuel more)
    (strength : Nat) (left : Expr Unit) :
    Tracks inside inside inside (Parser.chainRest (fuel + 1) strength left)
      (Parser.chainRest (more + 1) strength left) := by
  refine aligned.acceptBy_bind rfl tracks_pure fun token connective _ _ => ?_
  exact (ih.chain (strength + 1)).bind fun right => ih.chainRest strength _

private theorem unary_succ (aligned : Aligned inside past) (ih : TracksExpr inside fuel more) :
    Tracks inside inside inside (Parser.unary (fuel + 1)) (Parser.unary (more + 1)) := by
  refine aligned.acceptBy_bind rfl ?_ fun token op _ _ => ?_
  · exact ih.primary.bind fun callee => ih.callRest callee
  · exact ih.unary.bind fun operand => tracks_pure

private theorem callRest_succ (aligned : Aligned inside past) (ih : TracksExpr inside fuel more)
    (callee : Expr Unit) :
    Tracks inside inside inside (Parser.callRest (fuel + 1) callee)
      (Parser.callRest (more + 1) callee) := by
  refine aligned.accept_bind (aligned.leads (by simp)) tracks_pure
    fun opening => ?_
  have closed : ∀ arguments : List (Expr Unit), Tracks inside inside inside
      (do
        let paren ← require (.symbol .rightParen) .parenAfterArguments
        Parser.callRest fuel (.call paren callee arguments))
      (do
        let paren ← require (.symbol .rightParen) .parenAfterArguments
        Parser.callRest more (.call paren callee arguments)) := fun arguments =>
    aligned.require_bind (aligned.leads (by simp)) fun paren _ _ => ih.callRest _
  refine (aligned.nextIs _).bind fun isEmpty => ?_
  cases isEmpty with
  | true => exact tracks_pure.bind closed
  | false => exact (ih.argumentsFrom 0).bind closed

private theorem argumentsFrom_succ (aligned : Aligned inside past)
    (ih : TracksExpr inside fuel more) (earlier : Nat) :
    Tracks inside inside inside (Parser.argumentsFrom (fuel + 1) earlier)
      (Parser.argumentsFrom (more + 1) earlier) := by
  unfold Parser.argumentsFrom
  split
  case' isTrue => refine (aligned.reportHere _).bind fun _ => ?_
  all_goals
    refine ih.expression.bind fun first => ?_
    refine aligned.accept_bind (aligned.leads (by simp)) tracks_pure fun comma => ?_
    exact (ih.argumentsFrom (earlier + 1)).bind fun others => tracks_pure

/-- A token that makes up an expression, or with which one in parentheses starts. -/
private theorem primary_succ (aligned : Aligned inside past) (ih : TracksExpr inside fuel more) :
    Tracks inside inside inside (Parser.primary (fuel + 1)) (Parser.primary (more + 1)) := by
  intro cursor place here
  have failed : (fail .expression cursor : Reply (Expr Unit)).Matches inside inside
      (fail .expression place) := aligned.fail .expression cursor place here
  unfold Parser.primary
  rcases aligned.shape here with ⟨none, nothing⟩ | ⟨token, rest, others, finish, last, rfl, rfl, _⟩
  · simpa only [none, nothing] using failed
  · simp only
    cases isConstant : constant? token with
    | some value =>
        refine .ok (aligned.next here fun same => ?_)
        simp [constant?, same] at isConstant
    | none =>
        by_cases isName : token.kind = .identifier
        · simp only [isName, if_true]
          exact .ok (aligned.next here (by simp [isName]))
        · by_cases opens : token.kind = .symbol .leftParen
          · simp only [opens, if_true]
            refine (ih.expression.bind fun inner => ?_) _ _ (aligned.next here (by simp [opens]))
            exact aligned.require_bind (aligned.leads (by simp)) fun _ _ _ => tracks_pure
          · simpa only [isName, opens, if_false] using failed

end TracksExpr

theorem Aligned.tracksExpr (aligned : Aligned inside past) {fuel more : Nat}
    (enough : fuel ≤ more) :
    TracksExpr inside fuel more := by
  induction fuel generalizing more with
  | zero => constructor <;> intros <;> exact fun _ _ _ => .exhausted
  | succ fuel ih =>
      obtain ⟨more, rfl⟩ := Nat.exists_eq_add_of_lt enough
      have ih := ih (Nat.le_add_right fuel more)
      exact ⟨ih.expression_succ aligned, ih.chain_succ, ih.chainRest_succ aligned,
        ih.unary_succ aligned, ih.callRest_succ aligned, ih.argumentsFrom_succ aligned,
        ih.primary_succ aligned⟩

end Expressions

section Statements

variable {inside past : Cursor → Cursor → Prop} {fuel more : Nat}

theorem Aligned.optionalExpression (aligned : Aligned inside past) (enough : fuel ≤ more)
    (absent : TokenKind) :
    Tracks inside inside inside (optionalExpression fuel absent)
      (optionalExpression more absent) := by
  refine (aligned.nextIs absent).bind fun isAbsent => ?_
  cases isAbsent with
  | true => exact tracks_pure
  | false => exact (aligned.tracksExpr enough).expression.bind fun _ => tracks_pure

theorem Aligned.expressionStatement (aligned : Aligned inside past) (enough : fuel ≤ more) :
    Tracks inside inside past (expressionStatement fuel) (expressionStatement more) :=
  (aligned.tracksExpr enough).expression.bind fun _ =>
    aligned.require_bind aligned.leadsPast fun _ _ _ => tracks_pure

theorem Aligned.variableDeclaration (aligned : Aligned inside past) (enough : fuel ≤ more) :
    Tracks inside inside past (variableDeclaration fuel) (variableDeclaration more) := by
  refine aligned.require_bind (aligned.leads (by simp)) fun name _ _ => ?_
  refine aligned.accept_bind (aligned.leads (by simp)) ?_ fun equals => ?_
  · exact aligned.require_bind aligned.leadsPast fun _ _ _ => tracks_pure
  · refine (aligned.tracksExpr enough).expression.bind fun value => ?_
    exact aligned.require_bind aligned.leadsPast fun _ _ _ => tracks_pure

theorem Aligned.printStatement (aligned : Aligned inside past) (enough : fuel ≤ more)
    (keyword : Token) :
    Tracks inside inside past (printStatement fuel keyword) (printStatement more keyword) :=
  (aligned.tracksExpr enough).expression.bind fun _ =>
    aligned.require_bind aligned.leadsPast fun _ _ _ => tracks_pure

theorem Aligned.returnStatement (aligned : Aligned inside past) (enough : fuel ≤ more)
    (keyword : Token) :
    Tracks inside inside past (returnStatement fuel keyword) (returnStatement more keyword) :=
  (aligned.optionalExpression enough _).bind fun _ =>
    aligned.require_bind aligned.leadsPast fun _ _ _ => tracks_pure

/-- After the branch of a conditional, an `else` comes next in both streams or in neither. -/
theorem Aligned.acceptElse_bind (aligned : Aligned inside past)
    {next following : Option Token → Parser β}
    (absent : Tracks inside past past (next none) (following none))
    (present : ∀ token, Tracks inside inside past (next (some token)) (following (some token))) :
    Tracks inside past past (accept (.keyword .elseWord) >>= next)
      (accept (.keyword .elseWord) >>= following) := by
  intro cursor place here
  have without : (∀ token ∈ cursor.rest.head?, token.kind ≠ .keyword .elseWord) →
      (∀ token ∈ place.rest.head?, token.kind ≠ .keyword .elseWord) →
      ((accept (.keyword .elseWord) >>= next) cursor).Matches past inside
        ((accept (.keyword .elseWord) >>= following) place) := by
    intro others othersToo
    rw [bind_apply, bind_apply, accept_of_ne others, accept_of_ne othersToo]
    exact (absent cursor place here).after []
  rcases aligned.noElse here with common | ⟨others, othersToo⟩
  · rcases aligned.shape common with
      ⟨none, nothing⟩ | ⟨token, rest, words, finish, last, rfl, rfl, _⟩
    · exact without (by simp [none]) (by simp [nothing])
    · by_cases isElse : token.kind = .keyword .elseWord
      · rw [bind_apply, bind_apply, accept_of_kind isElse, accept_of_kind isElse]
        exact (present token _ _ (aligned.next common (by simp [isElse]))).after []
      · exact without (by simpa using isElse) (by simpa using isElse)
  · exact without others othersToo

theorem Aligned.ifStatement (aligned : Aligned inside past) (enough : fuel ≤ more)
    {branch other : Parser (Stmt Unit)} (branches : Tracks inside inside past branch other)
    (keyword : Token) :
    Tracks inside inside past (ifStatement fuel branch keyword)
      (ifStatement more other keyword) := by
  refine aligned.require_bind (aligned.leads (by simp)) fun _ _ _ => ?_
  refine (aligned.tracksExpr enough).expression.bind fun test => ?_
  refine aligned.require_bind (aligned.leads (by simp)) fun _ _ _ => ?_
  refine branches.bind fun consequent => aligned.acceptElse_bind tracks_pure fun _ => ?_
  exact branches.bind fun alternative => tracks_pure

theorem Aligned.whileStatement (aligned : Aligned inside past) (enough : fuel ≤ more)
    {branch other : Parser (Stmt Unit)} (branches : Tracks inside inside past branch other)
    (keyword : Token) :
    Tracks inside inside past (whileStatement fuel branch keyword)
      (whileStatement more other keyword) := by
  refine aligned.require_bind (aligned.leads (by simp)) fun _ _ _ => ?_
  refine (aligned.tracksExpr enough).expression.bind fun test => ?_
  refine aligned.require_bind (aligned.leads (by simp)) fun _ _ _ => ?_
  exact branches.bind fun body => tracks_pure

theorem Aligned.forInitializer (aligned : Aligned inside inside) (enough : fuel ≤ more) :
    Tracks inside inside inside (forInitializer fuel) (forInitializer more) := by
  refine aligned.accept_bind aligned.leadsPast ?_ fun _ => tracks_pure
  refine aligned.accept_bind (aligned.leads (by simp)) ?_ fun _ => ?_
  · exact (aligned.expressionStatement enough).bind fun _ => tracks_pure
  · exact (aligned.variableDeclaration enough).bind fun _ => tracks_pure

theorem Aligned.forStatement (aligned : Aligned inside inside) (enough : fuel ≤ more)
    {branch other : Parser (Stmt Unit)} (branches : Tracks inside inside inside branch other)
    (keyword : Token) :
    Tracks inside inside inside (forStatement fuel branch keyword)
      (forStatement more other keyword) := by
  refine aligned.require_bind (aligned.leads (by simp)) fun _ _ _ => ?_
  refine (aligned.forInitializer enough).bind fun initializer => ?_
  refine (aligned.optionalExpression enough _).bind fun test => ?_
  refine aligned.require_bind aligned.leadsPast fun _ _ _ => ?_
  refine (aligned.optionalExpression enough _).bind fun increment => ?_
  refine aligned.require_bind (aligned.leads (by simp)) fun _ _ _ => ?_
  exact branches.bind fun body => tracks_pure

theorem Aligned.parametersFrom (aligned : Aligned inside past) (enough : fuel ≤ more)
    (earlier : Nat) :
    Tracks inside inside inside (parametersFrom fuel earlier) (parametersFrom more earlier) := by
  induction fuel generalizing more earlier with
  | zero => exact fun _ _ _ => .exhausted
  | succ fuel ih =>
      obtain ⟨more, rfl⟩ := Nat.exists_eq_add_of_lt enough
      unfold Parser.parametersFrom
      split
      case' isTrue => refine (aligned.reportHere _).bind fun _ => ?_
      all_goals
        refine aligned.require_bind (aligned.leads (by simp)) fun first _ _ => ?_
        refine aligned.accept_bind (aligned.leads (by simp)) tracks_pure fun comma => ?_
        exact (ih (Nat.le_add_right fuel more) (earlier + 1)).bind fun others => tracks_pure

/-- Streams with a block in their common part go on alike after a semicolon. -/
theorem Aligned.functionDeclaration (aligned : Aligned inside past) (enough : fuel ≤ more)
    {block other : Parser (List (Stmt Unit))}
    (blocks : past = inside → Tracks inside inside inside block other) :
    Tracks inside inside past (functionDeclaration fuel block)
      (functionDeclaration more other) := by
  have finished : ∀ name parameters, Tracks inside inside past
      (do
        let _ ← require (.symbol .rightParen) .parenAfterParameters
        let _ ← require (.symbol .leftBrace) .braceBeforeBody
        let body ← block
        pure (.function name parameters body) : Parser (Stmt Unit))
      (do
        let _ ← require (.symbol .rightParen) .parenAfterParameters
        let _ ← require (.symbol .leftBrace) .braceBeforeBody
        let body ← other
        pure (.function name parameters body) : Parser (Stmt Unit)) := by
    intro name parameters
    refine aligned.require_bind (aligned.leads (by simp)) fun _ _ _ => ?_
    refine aligned.require_bind (aligned.leads (by simp)) fun brace heads isBrace => ?_
    obtain ⟨_, _, here, atHead⟩ := heads
    have whole := aligned.whole here atHead (.inr isBrace)
    rw [whole]
    exact (blocks whole).bind fun body => tracks_pure
  refine aligned.require_bind (aligned.leads (by simp)) fun name _ _ => ?_
  refine aligned.require_bind (aligned.leads (by simp)) fun _ _ _ => ?_
  refine (aligned.nextIs _).bind fun isEmpty => ?_
  cases isEmpty with
  | true => exact tracks_pure.bind (finished name)
  | false => exact (aligned.parametersFrom enough 0).bind (finished name)

/-- Where both runs give up, they skip the same tokens. -/
theorem Aligned.recovering (aligned : Aligned inside past) {rule other : Parser α}
    (tracked : Tracks inside inside past rule other) :
    Tracks inside inside (fun cursor place => inside cursor place ∨ past cursor place)
      (recovering rule) (recovering other) := by
  intro cursor place here
  have same := tracked cursor place here
  unfold Parser.recovering
  generalize rule cursor = reply at same
  generalize other place = answer at same
  cases same with
  | ok here => exact .ok (.inr here)
  | failed here => exact .ok (aligned.synchronized here)
  | exhausted => exact .exhausted

/-- A statement leads past its last semicolon, and a declaration perhaps only to the next one. -/
structure TracksStmt (inside past : Cursor → Cursor → Prop) (fuel more : Nat) : Prop where
  declaration : Tracks inside inside (fun cursor place => inside cursor place ∨ past cursor place)
    (declaration fuel) (declaration more)
  statement : Tracks inside inside past (statement fuel) (statement more)
  block : past = inside → Tracks inside inside inside (block fuel) (block more)

namespace TracksStmt

private theorem declaration_succ (aligned : Aligned inside past) (enough : fuel ≤ more)
    (ih : TracksStmt inside past fuel more) :
    Tracks inside inside (fun cursor place => inside cursor place ∨ past cursor place)
      (Parser.declaration (fuel + 1)) (Parser.declaration (more + 1)) := by
  refine aligned.recovering ?_
  refine aligned.accept_bind (aligned.leads (by simp)) ?_ fun _ =>
    aligned.functionDeclaration enough ih.block
  exact aligned.accept_bind (aligned.leads (by simp)) ih.statement fun _ =>
    aligned.variableDeclaration enough

private theorem statement_succ (aligned : Aligned inside past) (enough : fuel ≤ more)
    (ih : TracksStmt inside past fuel more) :
    Tracks inside inside past (Parser.statement (fuel + 1)) (Parser.statement (more + 1)) := by
  refine aligned.acceptBy_bind rfl (aligned.expressionStatement enough)
    fun token form heads chosen => ?_
  obtain ⟨_, _, here, atHead⟩ := heads
  have isForm := StatementForm.ofKind?_eq_some.mp chosen
  cases form with
  | forLoop =>
      have whole := aligned.whole here atHead (.inl isForm)
      subst whole
      exact aligned.forStatement enough ih.statement token
  | conditional => exact aligned.ifStatement enough ih.statement token
  | print => exact aligned.printStatement enough token
  | giveBack => exact aligned.returnStatement enough token
  | whileLoop => exact aligned.whileStatement enough ih.statement token
  | block =>
      have whole := aligned.whole here atHead (.inr isForm)
      rw [whole]
      exact (ih.block whole).bind fun body => tracks_pure

private theorem block_succ (aligned : Aligned inside inside)
    (ih : TracksStmt inside inside fuel more) :
    Tracks inside inside inside (Parser.block (fuel + 1)) (Parser.block (more + 1)) := by
  refine (aligned.nextIs _).bind fun closes => aligned.atEnd.bind fun isEnd => ?_
  split
  · exact aligned.require_bind (aligned.leads (by simp)) fun _ _ _ => tracks_pure
  · have declared := ih.declaration
    simp only [or_self] at declared
    exact declared.bind fun first => (ih.block rfl).bind fun others => tracks_pure

end TracksStmt

theorem Aligned.tracksStmt (aligned : Aligned inside past) (enough : fuel ≤ more) :
    TracksStmt inside past fuel more := by
  induction fuel generalizing more with
  | zero => constructor <;> intros <;> exact fun _ _ _ => .exhausted
  | succ fuel ih =>
      obtain ⟨more, rfl⟩ := Nat.exists_eq_add_of_lt enough
      have below := Nat.le_add_right fuel more
      have ih := ih below
      refine ⟨ih.declaration_succ aligned below, ih.statement_succ aligned below, ?_⟩
      rintro rfl
      exact ih.block_succ aligned

end Statements

end Parser

end Loxley
