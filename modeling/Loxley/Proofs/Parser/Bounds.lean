import Loxley.Proofs.Boundary
import Loxley.Proofs.Parser.Positions

/-!
# Positions stay inside the tokens

A walk over a list of tokens that ends with an end marker says what the parser says. It never looks
outside of the list and never moves past the first end marker, each declaration before that marker
moves on, and each syntax error is caught after it has been reported.
-/

set_option autoImplicit false

namespace Loxley

/-- The diagnostic of a syntax error. -/
def Event.error? : Event → Option Diagnostic
  | threw diagnostic => some diagnostic
  | _ => none

namespace Walk

/-- Events before a limit, with so many errors that are not yet caught. -/
structure Sound (limit pending : Nat) (diagnostics : List Diagnostic) (events : List Event) :
    Prop where
  moves : ∀ position, .moved position ∈ events → position ≤ limit
  declares : ∀ start stop, .declared start stop ∈ events → start < limit → start < stop
  reported : (events.filterMap Event.error?).Sublist diagnostics
  balanced : (events.filterMap Event.error?).length = events.count .caught + pending

/-- The tokens from a position on, up to the first end marker, which is at a given limit. -/
structure Stands (tokens : List Token) (limit current : Nat) (cursor : Cursor) : Prop where
  shape : ∃ later, tokens.drop current = cursor.rest ++ cursor.finish :: later
  others : ∀ token ∈ cursor.rest, token.kind ≠ .endOfFile
  isEnd : cursor.finish.kind = .endOfFile
  length : current + cursor.rest.length = limit

/-- A trip that says what a parser says, with sound events and a matching end. -/
inductive Agrees {α : Type} (tokens : List Token) (limit : Nat) : Trip α → Reply α → Prop
  | ok {value : α} {diagnostics : List Diagnostic} {events : List Event} {current : Nat}
      {cursor : Cursor} (stands : Stands tokens limit current cursor)
      (sound : Sound limit 0 diagnostics events) :
      Agrees tokens limit (.ok value diagnostics events current) (.ok value diagnostics cursor)
  | thrown {diagnostics : List Diagnostic} {events : List Event} {current : Nat} {cursor : Cursor}
      (stands : Stands tokens limit current cursor) (sound : Sound limit 1 diagnostics events) :
      Agrees tokens limit (.thrown diagnostics events current) (.failed diagnostics cursor)
  | exhausted : Agrees tokens limit .exhausted .exhausted

/-- A walk agrees with a rule wherever they start. -/
def Follows {α : Type} (tokens : List Token) (limit : Nat) (walk : Walk α) (rule : Parser α) :
    Prop :=
  ∀ current cursor, Stands tokens limit current cursor →
    Agrees tokens limit (walk tokens current) (rule cursor)

/-! ## Events -/

section Events

variable {limit pending : Nat} {diagnostics others : List Diagnostic} {events more : List Event}

theorem sound_nil (limit : Nat) (diagnostics : List Diagnostic) : Sound limit 0 diagnostics [] where
  moves := nofun
  declares := nofun
  reported := List.nil_sublist _
  balanced := rfl

theorem Sound.append (first : Sound limit 0 diagnostics events)
    (second : Sound limit pending others more) :
    Sound limit pending (diagnostics ++ others) (events ++ more) where
  moves position member := by
    rcases List.mem_append.mp member with here | later
    · exact first.moves position here
    · exact second.moves position later
  declares start stop member := by
    rcases List.mem_append.mp member with here | later
    · exact first.declares start stop here
    · exact second.declares start stop later
  reported := by
    rw [List.filterMap_append]
    exact first.reported.append second.reported
  balanced := by
    rw [List.filterMap_append, List.length_append, List.count_append, first.balanced,
      second.balanced]
    omega

theorem sound_moved {position : Nat} (inside : position ≤ limit) :
    Sound limit 0 [] [.moved position] where
  moves other member := by
    cases List.mem_singleton.mp member
    exact inside
  declares start stop member := by cases List.mem_singleton.mp member
  reported := List.nil_sublist _
  balanced := rfl

theorem sound_threw (diagnostic : Diagnostic) :
    Sound limit 1 [diagnostic] [.threw diagnostic] where
  moves position member := by cases List.mem_singleton.mp member
  declares start stop member := by cases List.mem_singleton.mp member
  reported := List.Sublist.refl _
  balanced := rfl

theorem sound_declared {start stop : Nat} (further : start < limit → start < stop) :
    Sound limit 0 [] [.declared start stop] where
  moves position member := by cases List.mem_singleton.mp member
  declares other end_ member := by
    cases List.mem_singleton.mp member
    exact further
  reported := List.nil_sublist _
  balanced := rfl

/-- A caught error is no longer pending. -/
theorem Sound.caught (thrown : Sound limit 1 diagnostics events) :
    Sound limit 0 diagnostics (events ++ [.caught]) where
  moves position member := by
    rcases List.mem_append.mp member with here | later
    · exact thrown.moves position here
    · cases List.mem_singleton.mp later
  declares start stop member := by
    rcases List.mem_append.mp member with here | later
    · exact thrown.declares start stop here
    · cases List.mem_singleton.mp later
  reported := by
    rw [List.filterMap_append]
    exact (List.append_nil _).symm ▸ thrown.reported
  balanced := by
    rw [List.filterMap_append, List.length_append, List.count_append, thrown.balanced]
    rfl

end Events

/-! ## Positions -/

namespace Stands

variable {tokens rest : List Token} {limit current : Nat} {cursor : Cursor} {token finish : Token}

theorem getElem?_eq (stands : Stands tokens limit current cursor) :
    tokens[current]? = some cursor.peek := by
  obtain ⟨later, shape⟩ := stands.shape
  have first : (tokens.drop current)[0]? = some cursor.peek := by
    rw [shape, Cursor.peek]
    cases cursor.rest <;> rfl
  rwa [List.getElem?_drop, Nat.add_zero] at first

theorem next (stands : Stands tokens limit current ⟨token :: rest, finish⟩) :
    Stands tokens limit (current + 1) ⟨rest, finish⟩ where
  shape := by
    obtain ⟨later, shape⟩ := stands.shape
    exact ⟨later, by rw [← List.drop_drop, shape]; rfl⟩
  others token member := stands.others token (List.mem_cons_of_mem _ member)
  isEnd := stands.isEnd
  length := by
    have length := stands.length
    simp only [List.length_cons] at length ⊢
    omega

theorem next_le (stands : Stands tokens limit current ⟨token :: rest, finish⟩) :
    current + 1 ≤ limit := by
  have length := stands.next.length
  omega

end Stands

/-! ## Steps -/

variable {α β : Type} {tokens rest : List Token} {limit current stop : Nat} {cursor : Cursor}
  {token finish : Token} {diagnostics : List Diagnostic} {events : List Event}

@[simp] theorem pure_apply (value : α) :
    (pure value : Walk α) tokens current = .ok value [] [] current := rfl

section Sequences

variable {walk : Walk α} {next : α → Walk β}

theorem bind_of_ok {value : α} (first : walk tokens current = .ok value diagnostics events stop) :
    (walk >>= next) tokens current = (next value tokens stop).after diagnostics events := by
  change andThen walk next tokens current = _
  rw [andThen, first]

theorem bind_of_thrown (first : walk tokens current = .thrown diagnostics events stop) :
    (walk >>= next) tokens current = .thrown diagnostics events stop := by
  change andThen walk next tokens current = _
  rw [andThen, first]

theorem bind_of_exhausted (first : walk tokens current = .exhausted) :
    (walk >>= next) tokens current = .exhausted := by
  change andThen walk next tokens current = _
  rw [andThen, first]

/-- A walk that only looks goes on with what it saw. -/
theorem bind_of_look {value : α} (looks : walk tokens current = .ok value [] [] current) :
    (walk >>= next) tokens current = next value tokens current := by
  rw [bind_of_ok looks, Trip.after_nil]

end Sequences

theorem peek_eq (stands : Stands tokens limit current cursor) :
    peek tokens current = .ok cursor.peek [] [] current := by
  rw [peek, tokenAt, stands.getElem?_eq]

theorem atEnd_eq (stands : Stands tokens limit current cursor) :
    atEnd tokens current = .ok cursor.rest.isEmpty [] [] current := by
  have seen : (cursor.peek.kind == .endOfFile) = cursor.rest.isEmpty := by
    rw [Cursor.peek]
    cases shape : cursor.rest with
    | nil => simpa using stands.isEnd
    | cons token rest => simpa using stands.others token (by simp [shape])
  rw [atEnd, bind_of_look (peek_eq stands), seen]
  rfl

theorem previous_eq (here : tokens[current]? = some token) :
    previous tokens (current + 1) = .ok token [] [] (current + 1) := by
  simp only [previous, tokenAt, here]

/-- Before the end, moving on gives the token that was moved over. -/
theorem advance_eq (stands : Stands tokens limit current ⟨token :: rest, finish⟩) :
    advance tokens current = .ok token [] [.moved (current + 1)] (current + 1) := by
  have moved : move tokens current = .ok () [] [.moved (current + 1)] (current + 1) := rfl
  rw [advance, bind_of_look (atEnd_eq stands)]
  refine (bind_of_ok moved).trans ?_
  rw [previous_eq stands.getElem?_eq]
  rfl

theorem nextIs_eq (stands : Stands tokens limit current cursor) (kind : TokenKind) :
    nextIs kind tokens current =
      .ok (cursor.rest.head?.any (·.kind == kind)) [] [] current := by
  rw [nextIs, bind_of_look (atEnd_eq stands)]
  cases shape : cursor.rest with
  | nil => rfl
  | cons token rest =>
      have seen : cursor.peek = token := by rw [Cursor.peek, shape]; rfl
      refine (bind_of_look (peek_eq stands)).trans ?_
      rw [seen]
      rfl

/-! ## Walks agree with parsers -/

section Agreement

variable {walk : Walk α} {rule : Parser α} {next : α → Walk β} {following : α → Parser β}

theorem Agrees.after {trip : Trip α} {reply : Reply α} (agrees : Agrees tokens limit trip reply)
    (sound : Sound limit 0 diagnostics events) :
    Agrees tokens limit (trip.after diagnostics events) (reply.after diagnostics) := by
  cases agrees with
  | ok stands more => exact .ok stands (sound.append more)
  | thrown stands more => exact .thrown stands (sound.append more)
  | exhausted => exact .exhausted

theorem Follows.bind (first : Follows tokens limit walk rule)
    (second : ∀ value, Follows tokens limit (next value) (following value)) :
    Follows tokens limit (walk >>= next) (rule >>= following) := by
  intro current cursor stands
  have agrees := first current cursor stands
  rw [Parser.bind_apply]
  generalize given : walk tokens current = trip at agrees
  generalize rule cursor = reply at agrees
  cases agrees with
  | @ok value diagnostics events stop place stands sound =>
      rw [bind_of_ok given]
      exact (second value stop place stands).after sound
  | thrown stands sound =>
      rw [bind_of_thrown given]
      exact .thrown stands sound
  | exhausted =>
      rw [bind_of_exhausted given]
      exact .exhausted

theorem follows_pure (value : α) :
    Follows tokens limit (pure value : Walk α) (pure value) :=
  fun _ _ stands => .ok stands (sound_nil limit [])

theorem follows_exhausted :
    Follows tokens limit (exhausted : Walk α) Parser.exhausted :=
  fun _ _ _ => .exhausted

theorem follows_report (token : Token) (problem : Problem) :
    Follows tokens limit (report token problem) (Parser.report token problem) :=
  fun _ _ stands => .ok stands (sound_nil limit _)

theorem follows_atEnd : Follows tokens limit atEnd Parser.atEnd := by
  intro current cursor stands
  rw [atEnd_eq stands]
  exact .ok stands (sound_nil limit [])

theorem follows_nextIs (kind : TokenKind) :
    Follows tokens limit (nextIs kind) (Parser.nextIs kind) := by
  intro current cursor stands
  rw [nextIs_eq stands]
  exact .ok stands (sound_nil limit [])

theorem follows_reportHere (problem : Problem) :
    Follows tokens limit (reportHere problem) (Parser.reportHere problem) := by
  intro current cursor stands
  rw [reportHere, bind_of_look (peek_eq stands)]
  exact .ok stands (sound_nil limit _)

theorem follows_fail (expectation : Expectation) :
    Follows tokens limit (fail expectation : Walk α) (Parser.fail expectation) := by
  intro current cursor stands
  rw [fail, bind_of_look (peek_eq stands)]
  exact .thrown stands (sound_threw _)

private theorem any_eq_false {kind : TokenKind}
    (others : ∀ token ∈ cursor.rest.head?, token.kind ≠ kind) :
    cursor.rest.head?.any (·.kind == kind) = false := by
  cases shape : cursor.rest with
  | nil => rfl
  | cons token rest => simpa [shape] using others

theorem follows_accept (kind : TokenKind) :
    Follows tokens limit (accept kind) (Parser.accept kind) := by
  intro current cursor stands
  rw [accept, bind_of_look (nextIs_eq stands kind)]
  rcases Parser.accept_cases kind cursor with ⟨others, none⟩ | ⟨token, rest, shape, same, some⟩
  · rw [none, any_eq_false others]
    exact .ok stands (sound_nil limit [])
  · obtain ⟨tokensLeft, finish⟩ := cursor
    cases shape
    have present : (token :: rest).head?.any (·.kind == kind) = true := by simpa using same
    rw [some, present, if_pos rfl, bind_of_ok (advance_eq stands)]
    exact .ok stands.next (sound_moved stands.next_le)

theorem follows_require (kind : TokenKind) (expectation : Expectation) :
    Follows tokens limit (require kind expectation) (Parser.require kind expectation) := by
  intro current cursor stands
  rw [require, bind_of_look (nextIs_eq stands kind)]
  rcases Parser.require_cases kind expectation cursor with
    ⟨others, failed⟩ | ⟨token, rest, shape, same, given⟩
  · rw [failed, any_eq_false others]
    exact follows_fail expectation current cursor stands
  · obtain ⟨tokensLeft, finish⟩ := cursor
    cases shape
    have present : (token :: rest).head?.any (·.kind == kind) = true := by simpa using same
    rw [given, present, if_pos rfl, advance_eq stands]
    exact .ok stands.next (sound_moved stands.next_le)

theorem follows_acceptBy (choose : TokenKind → Option α) :
    Follows tokens limit (acceptBy choose) (Parser.acceptBy choose) := by
  intro current cursor stands
  obtain ⟨tokensLeft, finish⟩ := cursor
  rw [acceptBy, bind_of_look (atEnd_eq stands)]
  cases tokensLeft with
  | nil => exact .ok stands (sound_nil limit [])
  | cons token rest =>
      have seen : peek tokens current = .ok token [] [] current := peek_eq stands
      simp only [List.isEmpty_cons, Bool.false_eq_true, if_false, Parser.acceptBy]
      rw [bind_of_look seen]
      cases choose token.kind with
      | none => exact .ok stands (sound_nil limit [])
      | some choice =>
          simp only [bind_of_ok (advance_eq stands)]
          exact .ok stands.next (sound_moved stands.next_le)

/-! ### Recovery -/

/-- Skipping on from behind a token stops where the parser does. -/
theorem skipOn_eq {steps : Nat} {skipped : Token} {left : List Token}
    (behind : tokens[current]? = some skipped)
    (stands : Stands tokens limit (current + 1) ⟨left, finish⟩) (enough : left.length < steps) :
    ∃ events stop, skipOn steps tokens (current + 1) = .ok () [] events stop ∧
      Stands tokens limit stop ⟨Parser.skipPast skipped left, finish⟩ ∧
      Sound limit 0 [] events := by
  induction left generalizing steps current skipped with
  | nil =>
      obtain ⟨steps, rfl⟩ := Nat.exists_eq_succ_of_ne_zero (Nat.ne_zero_of_lt enough)
      refine ⟨[], current + 1, ?_, stands, sound_nil limit []⟩
      rw [skipOn, bind_of_look (atEnd_eq stands)]
      rfl
  | cons next left ih =>
      obtain ⟨steps, rfl⟩ := Nat.exists_eq_succ_of_ne_zero (Nat.ne_zero_of_lt enough)
      have here : skipOn (steps + 1) tokens (current + 1) =
          (if skipped.kind = .symbol .semicolon then pure ()
            else if Parser.startsStatement next.kind then pure ()
            else do
              let _ ← advance
              skipOn steps : Walk Unit) tokens (current + 1) := by
        rw [skipOn, bind_of_look (atEnd_eq stands)]
        refine (bind_of_look (previous_eq behind)).trans ?_
        split
        · rfl
        · exact bind_of_look (peek_eq stands)
      rw [here, Parser.skipPast]
      by_cases ended : skipped.kind = .symbol .semicolon
      · simp only [ended, if_true, decide_true, Bool.true_or]
        exact ⟨[], current + 1, rfl, stands, sound_nil limit []⟩
      · by_cases starts : Parser.startsStatement next.kind = true
        · simp only [ended, starts, if_true, if_false, Bool.or_true]
          exact ⟨[], current + 1, rfl, stands, sound_nil limit []⟩
        · obtain ⟨events, stop, skips, further, sound⟩ :=
            @ih _ steps next stands.getElem?_eq stands.next (Nat.lt_of_succ_lt_succ enough)
          refine ⟨.moved (current + 1 + 1) :: events, stop, ?_, ?_, ?_⟩
          · simp only [ended, starts, if_false, Bool.false_eq_true]
            rw [bind_of_ok (advance_eq stands), skips]
            rfl
          · simpa only [ended, starts, decide_false, Bool.or_self, Bool.false_eq_true, if_false]
              using further
          · exact (sound_moved stands.next_le).append sound

/-- Away from the first token, recovery stops where the parser does. -/
theorem synchronize_eq (nonempty : 0 < limit) (stands : Stands tokens limit current cursor) :
    ∃ events stop, synchronize tokens current = .ok () [] events stop ∧
      Stands tokens limit stop { cursor with rest := Parser.synchronize cursor.rest } ∧
      Sound limit 0 [] events := by
  obtain ⟨left, finish⟩ := cursor
  cases left with
  | nil =>
      -- At the end there is a previous token, as the end is not at the first position.
      have isLast : current = limit := stands.length
      obtain ⟨position, rfl⟩ := Nat.exists_eq_succ_of_ne_zero (Nat.ne_of_gt (isLast ▸ nonempty))
      have inside : position + 1 < tokens.length :=
        (List.getElem?_eq_some_iff.mp stands.getElem?_eq).1
      have last : advance tokens (position + 1) =
          .ok tokens[position] [] [] (position + 1) := by
        rw [advance, bind_of_look (atEnd_eq stands)]
        exact previous_eq (List.getElem?_eq_getElem (Nat.lt_of_succ_lt inside))
      refine ⟨[], position + 1, ?_, stands, sound_nil limit []⟩
      rw [synchronize, bind_of_look last, skipOn, bind_of_look (atEnd_eq stands)]
      rfl
  | cons token rest =>
      have enough : rest.length < tokens.length + 1 := by
        obtain ⟨later, shape⟩ := stands.shape
        have lengths := congrArg List.length shape
        simp only [List.length_drop, List.length_append, List.length_cons] at lengths
        omega
      obtain ⟨events, stop, skips, further, sound⟩ :=
        skipOn_eq stands.getElem?_eq stands.next enough
      refine ⟨.moved (current + 1) :: events, stop, ?_, further,
        (sound_moved stands.next_le).append sound⟩
      rw [synchronize, bind_of_ok (advance_eq stands), skips]
      rfl

theorem follows_recovering (nonempty : 0 < limit) (follows : Follows tokens limit walk rule) :
    Follows tokens limit (catching walk synchronize) (Parser.recovering rule) := by
  intro current cursor stands
  have agrees := follows current cursor stands
  unfold catching Parser.recovering
  generalize walk tokens current = trip at agrees
  generalize rule cursor = reply at agrees
  cases agrees with
  | ok stands sound => exact .ok stands sound
  | thrown stands sound =>
      obtain ⟨events, stop, skips, further, moves⟩ := synchronize_eq nonempty stands
      simp only [bind_of_ok skips, pure_apply, Trip.after, List.append_nil]
      have whole := sound.caught.append moves
      rw [List.append_nil] at whole
      exact .ok further whole
  | exhausted => exact .exhausted

/-- A rule that moves on before the end may be recorded. -/
theorem follows_recording
    (consumes : ∀ cursor value diagnostics stopped, cursor.rest ≠ [] →
      rule cursor = .ok value diagnostics stopped → stopped.rest.length < cursor.rest.length)
    (follows : Follows tokens limit walk rule) : Follows tokens limit (recording walk) rule := by
  intro current cursor stands
  have agrees := follows current cursor stands
  have shorter := consumes cursor
  unfold recording
  generalize walk tokens current = trip at agrees
  generalize rule cursor = reply at agrees shorter
  cases agrees with
  | @ok value diagnostics events stop place further sound =>
      have declared : Sound limit 0 [] [.declared current stop] := by
        refine sound_declared fun before => ?_
        have here := stands.length
        have there := further.length
        have continues : cursor.rest ≠ [] := by
          intro none
          simp only [none, List.length_nil] at here
          omega
        have fewer := shorter value diagnostics place continues rfl
        omega
      refine .ok further ?_
      simpa using sound.append declared
  | thrown stands sound => exact .thrown stands sound
  | exhausted => exact .exhausted

end Agreement

/-! ### Expressions -/

structure FollowsExpr (tokens : List Token) (limit fuel : Nat) : Prop where
  expression : Follows tokens limit (expression fuel) (Parser.expression fuel)
  chain : ∀ strength, Follows tokens limit (chain fuel strength) (Parser.chain fuel strength)
  chainRest : ∀ strength left,
    Follows tokens limit (chainRest fuel strength left) (Parser.chainRest fuel strength left)
  unary : Follows tokens limit (unary fuel) (Parser.unary fuel)
  callRest : ∀ callee, Follows tokens limit (callRest fuel callee) (Parser.callRest fuel callee)
  argumentsFrom : ∀ earlier,
    Follows tokens limit (argumentsFrom fuel earlier) (Parser.argumentsFrom fuel earlier)
  primary : Follows tokens limit (primary fuel) (Parser.primary fuel)

namespace FollowsExpr

variable {fuel : Nat}

private theorem expression_succ (ih : FollowsExpr tokens limit fuel) :
    Follows tokens limit (Walk.expression (fuel + 1)) (Parser.expression (fuel + 1)) := by
  refine (ih.chain 1).bind fun target => (follows_accept _).bind fun equals => ?_
  cases equals with
  | none => exact follows_pure target
  | some equals =>
      refine ih.expression.bind fun value => ?_
      cases target
      case ident name reference => exact follows_pure _
      all_goals exact (follows_report equals _).bind fun _ => follows_pure _

private theorem chain_succ (ih : FollowsExpr tokens limit fuel) (strength : Nat) :
    Follows tokens limit (Walk.chain (fuel + 1) strength) (Parser.chain (fuel + 1) strength) := by
  unfold Walk.chain Parser.chain
  split
  · exact (ih.chain (strength + 1)).bind fun first => ih.chainRest strength first
  · exact ih.unary

private theorem chainRest_succ (ih : FollowsExpr tokens limit fuel) (strength : Nat)
    (left : Expr Unit) :
    Follows tokens limit (Walk.chainRest (fuel + 1) strength left)
      (Parser.chainRest (fuel + 1) strength left) := by
  refine (follows_acceptBy _).bind fun found => ?_
  cases found with
  | none => exact follows_pure left
  | some found => exact (ih.chain (strength + 1)).bind fun right => ih.chainRest strength _

private theorem unary_succ (ih : FollowsExpr tokens limit fuel) :
    Follows tokens limit (Walk.unary (fuel + 1)) (Parser.unary (fuel + 1)) := by
  refine (follows_acceptBy _).bind fun found => ?_
  cases found with
  | none => exact ih.primary.bind fun callee => ih.callRest callee
  | some found => exact ih.unary.bind fun operand => follows_pure _

private theorem callRest_succ (ih : FollowsExpr tokens limit fuel) (callee : Expr Unit) :
    Follows tokens limit (Walk.callRest (fuel + 1) callee)
      (Parser.callRest (fuel + 1) callee) := by
  refine (follows_accept _).bind fun opening => ?_
  cases opening with
  | none => exact follows_pure callee
  | some opening =>
      refine (follows_nextIs _).bind fun isEmpty => ?_
      cases isEmpty with
      | true =>
          refine (follows_pure []).bind fun arguments => ?_
          exact (follows_require _ _).bind fun paren => ih.callRest _
      | false =>
          refine (ih.argumentsFrom 0).bind fun arguments => ?_
          exact (follows_require _ _).bind fun paren => ih.callRest _

private theorem argumentsFrom_succ (ih : FollowsExpr tokens limit fuel) (earlier : Nat) :
    Follows tokens limit (Walk.argumentsFrom (fuel + 1) earlier)
      (Parser.argumentsFrom (fuel + 1) earlier) := by
  unfold Walk.argumentsFrom Parser.argumentsFrom
  split
  case' isTrue => refine (follows_reportHere _).bind fun _ => ?_
  all_goals
    refine ih.expression.bind fun first => (follows_accept _).bind fun comma => ?_
    cases comma with
    | none => exact follows_pure _
    | some comma => exact (ih.argumentsFrom (earlier + 1)).bind fun others => follows_pure _

private theorem primary_succ (ih : FollowsExpr tokens limit fuel) :
    Follows tokens limit (Walk.primary (fuel + 1)) (Parser.primary (fuel + 1)) := by
  intro current cursor stands
  have failed : Agrees tokens limit (fail .expression tokens current)
      (Parser.fail .expression cursor : Reply (Expr Unit)) :=
    follows_fail .expression current cursor stands
  obtain ⟨left, finish⟩ := cursor
  rw [Walk.primary, bind_of_look (atEnd_eq stands)]
  cases left with
  | nil => exact failed
  | cons token rest =>
      have seen : peek tokens current = .ok token [] [] current := peek_eq stands
      have moved := advance_eq stands
      simp only [List.isEmpty_cons, Bool.false_eq_true, if_false, Parser.primary]
      rw [bind_of_look seen]
      cases Parser.constant? token with
      | some value =>
          simp only [bind_of_ok moved]
          exact .ok stands.next (sound_moved stands.next_le)
      | none =>
          simp only
          by_cases isName : token.kind = .identifier
          · rw [if_pos isName, if_pos isName, bind_of_ok moved]
            exact .ok stands.next (sound_moved stands.next_le)
          · by_cases opens : token.kind = .symbol .leftParen
            · have inner : Follows tokens limit
                  (do
                    let inner ← Walk.expression fuel
                    let _ ← require (.symbol .rightParen) .parenAfterExpression
                    pure (.group token inner) : Walk (Expr Unit))
                  (do
                    let inner ← Parser.expression fuel
                    let _ ← Parser.require (.symbol .rightParen) .parenAfterExpression
                    pure (.group token inner) : Parser (Expr Unit)) :=
                ih.expression.bind fun inner => (follows_require _ _).bind fun _ => follows_pure _
              have agrees := (inner _ _ stands.next).after (sound_moved stands.next_le)
              rw [Reply.after_nil] at agrees
              rw [if_neg isName, if_pos opens, if_neg isName, if_pos opens, bind_of_ok moved]
              exact agrees
            · rw [if_neg isName, if_neg opens, if_neg isName, if_neg opens]
              exact failed

end FollowsExpr

theorem followsExpr (tokens : List Token) (limit fuel : Nat) : FollowsExpr tokens limit fuel := by
  induction fuel with
  | zero => constructor <;> intros <;> exact follows_exhausted
  | succ fuel ih =>
      exact ⟨ih.expression_succ, ih.chain_succ, ih.chainRest_succ, ih.unary_succ,
        ih.callRest_succ, ih.argumentsFrom_succ, ih.primary_succ⟩

/-! ### Statements -/

section Statements

variable {fuel : Nat}

theorem follows_optionalExpression (absent : TokenKind) :
    Follows tokens limit (optionalExpression fuel absent)
      (Parser.optionalExpression fuel absent) := by
  refine (follows_nextIs absent).bind fun isAbsent => ?_
  cases isAbsent with
  | true => exact follows_pure none
  | false => exact (followsExpr tokens limit fuel).expression.bind fun value => follows_pure _

theorem follows_expressionStatement :
    Follows tokens limit (expressionStatement fuel) (Parser.expressionStatement fuel) :=
  (followsExpr tokens limit fuel).expression.bind fun _ =>
    (follows_require _ _).bind fun _ => follows_pure _

theorem follows_variableDeclaration :
    Follows tokens limit (variableDeclaration fuel) (Parser.variableDeclaration fuel) := by
  refine (follows_require _ _).bind fun name => (follows_accept _).bind fun equals => ?_
  cases equals with
  | none => exact (follows_require _ _).bind fun _ => follows_pure _
  | some equals =>
      refine (followsExpr tokens limit fuel).expression.bind fun value => ?_
      exact (follows_require _ _).bind fun _ => follows_pure _

theorem follows_printStatement (keyword : Token) :
    Follows tokens limit (printStatement fuel keyword) (Parser.printStatement fuel keyword) :=
  (followsExpr tokens limit fuel).expression.bind fun _ =>
    (follows_require _ _).bind fun _ => follows_pure _

theorem follows_returnStatement (keyword : Token) :
    Follows tokens limit (returnStatement fuel keyword) (Parser.returnStatement fuel keyword) :=
  (follows_optionalExpression _).bind fun _ => (follows_require _ _).bind fun _ => follows_pure _

theorem follows_ifStatement {branch : Walk (Stmt Unit)} {other : Parser (Stmt Unit)}
    (branches : Follows tokens limit branch other) (keyword : Token) :
    Follows tokens limit (ifStatement fuel branch keyword)
      (Parser.ifStatement fuel other keyword) := by
  refine (follows_require _ _).bind fun _ => ?_
  refine (followsExpr tokens limit fuel).expression.bind fun test => ?_
  refine (follows_require _ _).bind fun _ => branches.bind fun consequent => ?_
  refine (follows_accept _).bind fun otherwise => ?_
  cases otherwise with
  | none => exact follows_pure _
  | some otherwise => exact branches.bind fun alternative => follows_pure _

theorem follows_whileStatement {branch : Walk (Stmt Unit)} {other : Parser (Stmt Unit)}
    (branches : Follows tokens limit branch other) (keyword : Token) :
    Follows tokens limit (whileStatement fuel branch keyword)
      (Parser.whileStatement fuel other keyword) := by
  refine (follows_require _ _).bind fun _ => ?_
  refine (followsExpr tokens limit fuel).expression.bind fun test => ?_
  exact (follows_require _ _).bind fun _ => branches.bind fun body => follows_pure _

theorem follows_forInitializer :
    Follows tokens limit (forInitializer fuel) (Parser.forInitializer fuel) := by
  refine (follows_accept _).bind fun semicolon => ?_
  cases semicolon with
  | some semicolon => exact follows_pure none
  | none =>
      refine (follows_accept _).bind fun isVariable => ?_
      cases isVariable with
      | some keyword => exact follows_variableDeclaration.bind fun first => follows_pure _
      | none => exact follows_expressionStatement.bind fun first => follows_pure _

theorem follows_forStatement {branch : Walk (Stmt Unit)} {other : Parser (Stmt Unit)}
    (branches : Follows tokens limit branch other) (keyword : Token) :
    Follows tokens limit (forStatement fuel branch keyword)
      (Parser.forStatement fuel other keyword) := by
  refine (follows_require _ _).bind fun _ => follows_forInitializer.bind fun initializer => ?_
  refine (follows_optionalExpression _).bind fun test => (follows_require _ _).bind fun _ => ?_
  refine (follows_optionalExpression _).bind fun increment => ?_
  exact (follows_require _ _).bind fun _ => branches.bind fun body => follows_pure _

theorem follows_parametersFrom (earlier : Nat) :
    Follows tokens limit (parametersFrom fuel earlier) (Parser.parametersFrom fuel earlier) := by
  induction fuel generalizing earlier with
  | zero => exact follows_exhausted
  | succ fuel ih =>
      unfold Walk.parametersFrom Parser.parametersFrom
      split
      case' isTrue => refine (follows_reportHere _).bind fun _ => ?_
      all_goals
        refine (follows_require _ _).bind fun first => (follows_accept _).bind fun comma => ?_
        cases comma with
        | none => exact follows_pure _
        | some comma => exact (ih (earlier + 1)).bind fun others => follows_pure _

theorem follows_functionDeclaration {block : Walk (List (Stmt Unit))}
    {other : Parser (List (Stmt Unit))} (blocks : Follows tokens limit block other) :
    Follows tokens limit (functionDeclaration fuel block)
      (Parser.functionDeclaration fuel other) := by
  refine (follows_require _ _).bind fun name => (follows_require _ _).bind fun _ => ?_
  refine (follows_nextIs _).bind fun isEmpty => ?_
  cases isEmpty with
  | true =>
      refine (follows_pure []).bind fun parameters => (follows_require _ _).bind fun _ => ?_
      exact (follows_require _ _).bind fun _ => blocks.bind fun body => follows_pure _
  | false =>
      refine (follows_parametersFrom 0).bind fun parameters => (follows_require _ _).bind fun _ => ?_
      exact (follows_require _ _).bind fun _ => blocks.bind fun body => follows_pure _

/-- With any fuel, a declaration before the end takes a token. -/
theorem length_declaration_lt {cursor stopped : Cursor} {value : Option (Stmt Unit)}
    {diagnostics : List Diagnostic} (continues : cursor.rest ≠ [])
    (parsed : Parser.declaration fuel cursor = .ok value diagnostics stopped) :
    stopped.rest.length < cursor.rest.length := by
  have less : fuel ≤ fuel + (20 * cursor.rest.length + 12) := Nat.le_add_right _ _
  have same := (Parser.aligned_eq.tracksStmt less).declaration cursor cursor rfl
  obtain ⟨other, others, place, declared, _, shorter⟩ :=
    (Parser.adequateStmt (fuel + (20 * cursor.rest.length + 12))).declaration cursor.rest.length
      (Nat.le_add_left _ _) cursor (Nat.le_refl _) continues
  rw [parsed, declared] at same
  cases same with
  | ok here =>
      rcases here with rfl | rfl
      all_goals exact shorter

structure FollowsStmt (tokens : List Token) (limit fuel : Nat) : Prop where
  declaration : Follows tokens limit (declaration fuel) (Parser.declaration fuel)
  statement : Follows tokens limit (statement fuel) (Parser.statement fuel)
  block : Follows tokens limit (block fuel) (Parser.block fuel)

namespace FollowsStmt

private theorem declaration_succ (nonempty : 0 < limit) (ih : FollowsStmt tokens limit fuel) :
    Follows tokens limit (Walk.declaration (fuel + 1)) (Parser.declaration (fuel + 1)) := by
  refine follows_recording (fun _ _ _ _ => length_declaration_lt) (follows_recovering nonempty ?_)
  refine (follows_accept _).bind fun isFunction => ?_
  cases isFunction with
  | some keyword => exact follows_functionDeclaration ih.block
  | none =>
      refine (follows_accept _).bind fun isVariable => ?_
      cases isVariable with
      | some keyword => exact follows_variableDeclaration
      | none => exact ih.statement

private theorem statement_succ (ih : FollowsStmt tokens limit fuel) :
    Follows tokens limit (Walk.statement (fuel + 1)) (Parser.statement (fuel + 1)) := by
  refine (follows_acceptBy _).bind fun found => ?_
  rcases found with _ | ⟨token, form⟩
  · exact follows_expressionStatement
  · cases form with
    | forLoop => exact follows_forStatement ih.statement token
    | conditional => exact follows_ifStatement ih.statement token
    | print => exact follows_printStatement token
    | giveBack => exact follows_returnStatement token
    | whileLoop => exact follows_whileStatement ih.statement token
    | block => exact ih.block.bind fun body => follows_pure _

private theorem block_succ (ih : FollowsStmt tokens limit fuel) :
    Follows tokens limit (Walk.block (fuel + 1)) (Parser.block (fuel + 1)) := by
  refine (follows_nextIs _).bind fun closes => follows_atEnd.bind fun isEnd => ?_
  split
  · exact (follows_require _ _).bind fun _ => follows_pure _
  · exact ih.declaration.bind fun first => ih.block.bind fun others => follows_pure _

end FollowsStmt

theorem followsStmt (tokens : List Token) (nonempty : 0 < limit) (fuel : Nat) :
    FollowsStmt tokens limit fuel := by
  induction fuel with
  | zero => constructor <;> exact follows_exhausted
  | succ fuel ih => exact ⟨ih.declaration_succ nonempty, ih.statement_succ, ih.block_succ⟩

theorem follows_program (fuel : Nat) :
    Follows tokens limit (program fuel) (Parser.program fuel) := by
  rcases Nat.eq_zero_or_pos limit with isFirst | nonempty
  · -- The end marker is the first token, so that nothing is declared.
    intro current cursor stands
    have isEnd : cursor.rest = [] := by
      have length := stands.length
      exact List.length_eq_zero_iff.mp (by omega)
    cases fuel with
    | zero => exact .exhausted
    | succ fuel =>
        rw [program, bind_of_look (atEnd_eq stands), Parser.program, Parser.bind_apply]
        simp only [Parser.atEnd, isEnd, List.isEmpty_nil, if_true, Reply.after_nil]
        exact .ok stands (sound_nil limit [])
  · induction fuel with
    | zero => exact follows_exhausted
    | succ fuel ih =>
        refine follows_atEnd.bind fun isEnd => ?_
        cases isEnd with
        | true => exact follows_pure []
        | false =>
            exact (followsStmt tokens nonempty fuel).declaration.bind fun first =>
              ih.bind fun others => follows_pure _

end Statements

/-! ## Whole streams -/

section Streams

variable {fuel more bound : Nat}

/-- The rule for an expression and nothing after it, before its error is caught. -/
theorem follows_wholeExpression (fuel : Nat) :
    Follows tokens limit
      (do
        let value ← expression fuel
        if ← atEnd then pure value else fail .endOfExpression)
      (Parser.wholeExpression fuel) := by
  refine (followsExpr tokens limit fuel).expression.bind fun value => ?_
  refine follows_atEnd.bind fun isEnd => ?_
  cases isEnd with
  | true => exact follows_pure value
  | false => exact follows_fail _

theorem advances_wholeExpression (enough : 20 * bound + 10 ≤ fuel) :
    Parser.Advances false bound (Parser.wholeExpression fuel) := by
  refine ((Parser.adequateExpr fuel).expression bound enough).weaken.bind fun value => ?_
  refine Parser.Advances.bind (fun _ _ => .ok (List.suffix_refl _) nofun) fun isEnd => ?_
  cases isEnd with
  | true => exact Parser.advances_pure bound value
  | false => exact Parser.advances_fail false bound _

theorem wholeExpression_tracks (enough : fuel ≤ more) :
    Parser.Tracks Eq Eq Eq (Parser.wholeExpression fuel) (Parser.wholeExpression more) := by
  refine (Parser.aligned_eq.tracksExpr enough).expression.bind fun value => ?_
  refine Parser.aligned_eq.atEnd.bind fun isEnd => ?_
  cases isEnd with
  | true => exact Parser.tracks_pure
  | false => exact Parser.aligned_eq.fail _

/-- More fuel than enough changes nothing. -/
theorem wholeExpression_of_le {cursor : Cursor} (enough : Parser.fuelFor cursor ≤ fuel) :
    Parser.wholeExpression (Parser.fuelFor cursor) cursor = Parser.wholeExpression fuel cursor := by
  have adequate : 20 * cursor.rest.length + 10 ≤ Parser.fuelFor cursor := by
    rw [Parser.fuelFor]
    omega
  have stops := advances_wholeExpression adequate cursor (Nat.le_refl _)
  have same := wholeExpression_tracks enough cursor cursor rfl
  generalize Parser.wholeExpression (Parser.fuelFor cursor) cursor = reply at stops same
  generalize Parser.wholeExpression fuel cursor = answer at same
  cases same with
  | ok here => rw [here]
  | failed here => rw [here]
  | exhausted => cases stops

theorem wholeExpression_eq (stands : Stands tokens limit current cursor)
    (enough : Parser.fuelFor cursor ≤ fuel) :
    ∃ events stop, wholeExpression fuel tokens current =
        .ok cursor.expression.value cursor.expression.diagnostics events stop ∧
      stop ≤ limit ∧ Sound limit 0 cursor.expression.diagnostics events := by
  have adequate : 20 * cursor.rest.length + 10 ≤ fuel := by
    rw [Parser.fuelFor] at enough
    omega
  have agrees := follows_wholeExpression fuel current cursor stands
  have stops := advances_wholeExpression adequate cursor (Nat.le_refl _)
  rw [Cursor.expression, wholeExpression_of_le enough, wholeExpression, catching]
  generalize (do
    let value ← expression fuel
    if ← atEnd then pure value else fail .endOfExpression : Walk (Expr Unit)) tokens current =
      trip at agrees
  generalize Parser.wholeExpression fuel cursor = reply at agrees stops
  cases agrees with
  | ok further sound => exact ⟨_, _, rfl, Nat.le.intro further.length, sound⟩
  | @thrown diagnostics events stop place further sound =>
      refine ⟨events ++ [.caught], stop, ?_, Nat.le.intro further.length, sound.caught⟩
      simp [bind_of_look, Trip.after]
  | exhausted => cases stops

theorem program_eq (stands : Stands tokens limit current cursor)
    (enough : Parser.fuelFor cursor ≤ fuel) :
    ∃ events, program fuel tokens current =
        .ok cursor.program.value cursor.program.diagnostics events limit ∧
      Sound limit 0 cursor.program.diagnostics events := by
  have adequate : 20 * cursor.rest.length + 13 ≤ fuel := by
    rw [Parser.fuelFor] at enough
    omega
  obtain ⟨value, diagnostics, stopped, parsed, isEnd⟩ :=
    Parser.program_eq_ok adequate (Nat.le_refl _)
  have agrees := follows_program fuel current cursor stands
  rw [Cursor.program_of_ok parsed]
  rw [parsed] at agrees
  generalize program fuel tokens current = trip at agrees
  cases agrees with
  | @ok _ _ events stop _ further sound =>
      have isLast : stop = limit := by
        have length := further.length
        rw [isEnd] at length
        exact length
      exact ⟨events, by rw [isLast], sound⟩

end Streams

/-- A stream that ends with an end marker starts before the first one. -/
theorem stands_start {last : Token} (ends : tokens.getLast? = some last)
    (isEnd : last.kind = .endOfFile) :
    ∃ cursor limit, Cursor.ofTokens? tokens = some cursor ∧ Stands tokens limit 0 cursor ∧
      tokens.take limit = cursor.rest := by
  have member := List.mem_of_getLast? ends
  cases found : tokens.find? (·.kind == .endOfFile) with
  | none => exact absurd isEnd (by simpa using List.find?_eq_none.mp found last member)
  | some finish =>
      obtain ⟨marks, words, later, shape, others⟩ := List.find?_eq_some_iff_append.mp found
      have taken : tokens.takeWhile (·.kind != .endOfFile) = words := by
        rw [shape, List.takeWhile_append_of_pos (by simpa using others)]
        simpa using marks
      refine ⟨⟨words, finish⟩, words.length, ?_, ⟨⟨later, shape⟩, ?_, ?_, Nat.zero_add _⟩, ?_⟩
      · simp [Cursor.ofTokens?, ends, found, taken, isEnd]
      · simpa using others
      · simpa using marks
      · rw [shape, List.take_left]

/-- On every stream of tokens that ends with an end marker, a walk ends with what the parser says. It
looks at no token outside of the stream and moves no further than to the first end marker, its
declarations move on, and its errors have been reported and caught. -/
theorem stays_in_bounds {last : Token} (ends : tokens.getLast? = some last)
    (isEnd : last.kind = .endOfFile) :
    ∃ cursor limit, Cursor.ofTokens? tokens = some cursor ∧
      tokens[limit]? = some cursor.finish ∧ cursor.finish.kind = .endOfFile ∧
      (∀ token ∈ tokens.take limit, token.kind ≠ .endOfFile) ∧
      ∀ fuel, Parser.fuelFor cursor ≤ fuel →
        (∃ events, program fuel tokens 0 =
            .ok cursor.program.value cursor.program.diagnostics events limit ∧
          Sound limit 0 cursor.program.diagnostics events) ∧
        ∃ events stop, wholeExpression fuel tokens 0 =
            .ok cursor.expression.value cursor.expression.diagnostics events stop ∧
          stop ≤ limit ∧ Sound limit 0 cursor.expression.diagnostics events := by
  obtain ⟨cursor, limit, opened, stands, before⟩ := stands_start ends isEnd
  refine ⟨cursor, limit, opened, ?_, stands.isEnd, ?_, fun fuel enough => ?_⟩
  · obtain ⟨later, shape⟩ := stands.shape
    have length := stands.length
    rw [List.drop_zero] at shape
    rw [Nat.zero_add] at length
    rw [shape, ← length]
    simp
  · rw [before]
    exact stands.others
  · exact ⟨program_eq stands enough, wholeExpression_eq stands enough⟩

/-- Whether a trip gives a value, and its events and its end pass a test. -/
def passes {α : Type} (test : List Event → Nat → Bool) : Trip α → Bool
  | .ok _ _ events current => test events current
  | _ => false

/-- Two declarations that go wrong, the second at an end marker that more tokens follow. -/
def broken : List Token :=
  [{ kind := .keyword .varWord, lexeme := "var", line := 1 },
    { kind := .symbol .equal, lexeme := "=", line := 1 },
    { kind := .symbol .semicolon, lexeme := ";", line := 1 },
    { kind := .keyword .printWord, lexeme := "print", line := 2 },
    { kind := .number, lexeme := "1", literal := .number 1, line := 2 },
    { kind := .endOfFile, lexeme := [], line := 2 },
    { kind := .symbol .rightParen, lexeme := ")", line := 3 },
    { kind := .endOfFile, lexeme := [], line := 3 }]

theorem broken_stays_in_bounds :
    broken.getLast? = some { kind := .endOfFile, lexeme := [], line := 3 } ∧
    ∃ cursor events, Cursor.ofTokens? broken = some cursor ∧
      program 120 broken 0 = .ok cursor.program.value cursor.program.diagnostics events 5 ∧
      Sound 5 0 cursor.program.diagnostics events ∧ events.count .caught = 2 ∧
      .declared 0 3 ∈ events ∧ .declared 3 5 ∈ events := by
  have runs : passes (fun events current => current == 5 && events.count .caught == 2 &&
      events.contains (.declared 0 3) && events.contains (.declared 3 5))
        (program 120 broken 0) = true := by decide +kernel
  have enough : (Cursor.ofTokens? broken).any (Parser.fuelFor · ≤ 120) = true := by decide +kernel
  have ends : broken.getLast? = some { kind := .endOfFile, lexeme := [], line := 3 } := rfl
  obtain ⟨cursor, limit, opened, _, _, _, walks⟩ := stays_in_bounds ends rfl
  rw [opened] at enough
  obtain ⟨⟨events, walked, sound⟩, _⟩ := walks 120 (by simpa using enough)
  rw [walked] at runs
  simp only [passes, Bool.and_eq_true, beq_iff_eq, List.contains_iff_mem] at runs
  obtain ⟨⟨⟨isLimit, caught⟩, first⟩, second⟩ := runs
  subst isLimit
  exact ⟨ends, cursor, events, opened, walked, sound, caught, first, second⟩

end Walk

end Loxley
