import Loxley.Parser.Basic

/-!
# Replies of parsers

How a sequence of parsers comes by its reply.
-/

set_option autoImplicit false

namespace Loxley

@[simp] theorem Reply.after_nil {α : Type} (reply : Reply α) : reply.after [] = reply := by
  cases reply <;> rfl

/-- The words before an end marker are what there is to read. -/
theorem Cursor.ofTokens?_append {words : List Token} {finish : Token}
    (isEnd : finish.kind = .endOfFile) (others : ∀ word ∈ words, word.kind ≠ .endOfFile) :
    Cursor.ofTokens? (words ++ [finish]) = some { rest := words, finish } := by
  have found : (words ++ [finish]).find? (·.kind == .endOfFile) = some finish := by
    rw [List.find?_append, List.find?_eq_none.mpr (by simpa using others)]
    simp [isEnd]
  have taken : (words ++ [finish]).takeWhile (·.kind != .endOfFile) = words := by
    rw [List.takeWhile_append_of_pos (by simpa using others)]
    simp [isEnd]
  simp [Cursor.ofTokens?, found, taken, isEnd]

namespace Parser

variable {α β : Type} {rule : Parser α} {next : α → Parser β} {cursor stopped : Cursor}

@[simp] theorem pure_apply (value : α) (cursor : Cursor) :
    (pure value : Parser α) cursor = .ok value [] cursor := rfl

theorem bind_apply (rule : Parser α) (next : α → Parser β) (cursor : Cursor) :
    (rule >>= next) cursor =
      match rule cursor with
      | .ok value diagnostics cursor => (next value cursor).after diagnostics
      | .failed diagnostics cursor => .failed diagnostics cursor
      | .exhausted => .exhausted := rfl

/-- A sequence gives what its second parser gives, after the diagnostics of the first. -/
theorem bind_eq_ok {value : β} {diagnostics : List Diagnostic}
    (parsed : (rule >>= next) cursor = .ok value diagnostics stopped) :
    ∃ middle found position others, rule cursor = .ok middle found position ∧
      next middle position = .ok value others stopped ∧ diagnostics = found ++ others := by
  rw [bind_apply] at parsed
  cases reply : rule cursor with
  | failed found place => simp [reply] at parsed
  | exhausted => simp [reply] at parsed
  | ok middle found position =>
      cases later : next middle position with
      | failed others place => simp [reply, later, Reply.after] at parsed
      | exhausted => simp [reply, later, Reply.after] at parsed
      | ok result others finish =>
          simp only [reply, later, Reply.after, Reply.ok.injEq] at parsed
          obtain ⟨rfl, rfl, rfl⟩ := parsed
          exact ⟨middle, found, position, others, rfl, later, rfl⟩

/-- A sequence without diagnostics has none in either of its parts. -/
theorem bind_eq_ok_nil {value : β} (parsed : (rule >>= next) cursor = .ok value [] stopped) :
    ∃ middle position, rule cursor = .ok middle [] position ∧
      next middle position = .ok value [] stopped := by
  obtain ⟨middle, found, position, others, first, second, clean⟩ := bind_eq_ok parsed
  obtain ⟨rfl, rfl⟩ := List.append_eq_nil_iff.mp clean.symm
  exact ⟨middle, position, first, second⟩

theorem acceptBy_cases (choose : TokenKind → Option α) (cursor : Cursor) :
    ((∀ token ∈ cursor.rest.head?, choose token.kind = none) ∧
        acceptBy choose cursor = .ok none [] cursor) ∨
      ∃ token rest choice, cursor.rest = token :: rest ∧ choose token.kind = some choice ∧
        acceptBy choose cursor = .ok (some (token, choice)) [] { cursor with rest } := by
  unfold acceptBy
  cases shape : cursor.rest with
  | nil => exact .inl ⟨by simp, rfl⟩
  | cons token rest =>
      cases chosen : choose token.kind with
      | none => exact .inl ⟨by simpa using chosen, by simp [chosen]⟩
      | some choice => exact .inr ⟨token, rest, choice, rfl, chosen, by simp [chosen]⟩

theorem accept_cases (kind : TokenKind) (cursor : Cursor) :
    ((∀ token ∈ cursor.rest.head?, token.kind ≠ kind) ∧
        accept kind cursor = .ok none [] cursor) ∨
      ∃ token rest, cursor.rest = token :: rest ∧ token.kind = kind ∧
        accept kind cursor = .ok (some token) [] { cursor with rest } := by
  unfold accept
  cases shape : cursor.rest with
  | nil => exact .inl ⟨by simp, rfl⟩
  | cons token rest =>
      by_cases same : token.kind = kind
      · exact .inr ⟨token, rest, rfl, same, if_pos same⟩
      · exact .inl ⟨by simpa using same, if_neg same⟩

theorem require_cases (kind : TokenKind) (expectation : Expectation) (cursor : Cursor) :
    ((∀ token ∈ cursor.rest.head?, token.kind ≠ kind) ∧
        require kind expectation cursor =
          .failed [.atToken cursor.peek (.expected expectation)] cursor) ∨
      ∃ token rest, cursor.rest = token :: rest ∧ token.kind = kind ∧
        require kind expectation cursor = .ok token [] { cursor with rest } := by
  unfold require
  rw [bind_apply]
  rcases accept_cases kind cursor with ⟨others, none⟩ | ⟨token, rest, shape, same, some⟩
  · rw [none]
    exact .inl ⟨others, rfl⟩
  · rw [some]
    exact .inr ⟨token, rest, shape, same, rfl⟩

/-! ## Sequences that start with a token -/

theorem require_bind_eq_ok_nil {kind : TokenKind} {expectation : Expectation}
    {next : Token → Parser β} {value : β}
    (parsed : (require kind expectation >>= next) cursor = .ok value [] stopped) :
    ∃ token rest, cursor.rest = token :: rest ∧ token.kind = kind ∧
      next token { cursor with rest } = .ok value [] stopped := by
  obtain ⟨token, position, required, later⟩ := bind_eq_ok_nil parsed
  rcases require_cases kind expectation cursor with ⟨_, failed⟩ | ⟨found, rest, shape, same, given⟩
  · cases required.symm.trans failed
  · cases required.symm.trans given
    exact ⟨token, rest, shape, same, later⟩

theorem accept_bind_eq_ok_nil {kind : TokenKind} {next : Option Token → Parser β} {value : β}
    (parsed : (accept kind >>= next) cursor = .ok value [] stopped) :
    ((∀ token ∈ cursor.rest.head?, token.kind ≠ kind) ∧
        next none cursor = .ok value [] stopped) ∨
      ∃ token rest, cursor.rest = token :: rest ∧ token.kind = kind ∧
        next (some token) { cursor with rest } = .ok value [] stopped := by
  obtain ⟨accepted, position, looked, later⟩ := bind_eq_ok_nil parsed
  rcases accept_cases kind cursor with ⟨others, none⟩ | ⟨found, rest, shape, same, some⟩
  · cases looked.symm.trans none
    exact .inl ⟨others, later⟩
  · cases looked.symm.trans some
    exact .inr ⟨found, rest, shape, same, later⟩

theorem acceptBy_bind_eq_ok_nil {choose : TokenKind → Option α}
    {next : Option (Token × α) → Parser β} {value : β}
    (parsed : (acceptBy choose >>= next) cursor = .ok value [] stopped) :
    next none cursor = .ok value [] stopped ∨
      ∃ token rest choice, cursor.rest = token :: rest ∧ choose token.kind = some choice ∧
        next (some (token, choice)) { cursor with rest } = .ok value [] stopped := by
  obtain ⟨accepted, position, looked, later⟩ := bind_eq_ok_nil parsed
  rcases acceptBy_cases choose cursor with ⟨_, none⟩ | ⟨found, rest, choice, shape, same, some⟩
  · cases looked.symm.trans none
    exact .inl later
  · cases looked.symm.trans some
    exact .inr ⟨found, rest, choice, shape, same, later⟩

end Parser

end Loxley
