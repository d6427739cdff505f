import Loxley.Diagnostic

/-!
# Parsers

A parser reads tokens up to the end marker. It either gives a value, or gives up after a diagnostic
and leaves the position where it stopped, from which the enclosing declaration recovers. Running out
of fuel is a third reply, kept apart from both.
-/

set_option autoImplicit false

namespace Loxley

/-- A position in a token stream. -/
structure Cursor where
  /-- The tokens that are left before the end marker. -/
  rest : List Token
  /-- The end marker. -/
  finish : Token

namespace Cursor

/-- The tokens up to the first end marker. A stream must end with an end marker. -/
def ofTokens? (tokens : List Token) : Option Cursor :=
  match tokens.getLast?, tokens.find? (·.kind == .endOfFile) with
  | some last, some finish =>
    if last.kind = .endOfFile then
      some { rest := tokens.takeWhile (·.kind != .endOfFile), finish }
    else none
  | _, _ => none

/-- The token at the position: the next one, or the end marker. -/
def peek (cursor : Cursor) : Token :=
  cursor.rest.headD cursor.finish

end Cursor

/-- What a parser gives. -/
inductive Reply (α : Type) where
  | ok (value : α) (diagnostics : List Diagnostic) (cursor : Cursor)
  | failed (diagnostics : List Diagnostic) (cursor : Cursor)
  | exhausted

namespace Reply

variable {α : Type}

/-- The reply with earlier diagnostics before its own. -/
def after (earlier : List Diagnostic) : Reply α → Reply α
  | ok value diagnostics cursor => ok value (earlier ++ diagnostics) cursor
  | failed diagnostics cursor => failed (earlier ++ diagnostics) cursor
  | exhausted => exhausted

end Reply

/-- A parser of values. -/
def Parser (α : Type) : Type :=
  Cursor → Reply α

namespace Parser

variable {α β : Type}

/-- Gives a value without reading. -/
def give (value : α) : Parser α :=
  fun cursor => .ok value [] cursor

/-- Reads with a parser, and goes on with what it gave. -/
def andThen (first : Parser α) (next : α → Parser β) : Parser β :=
  fun cursor =>
    match first cursor with
    | .ok value diagnostics cursor => (next value cursor).after diagnostics
    | .failed diagnostics cursor => .failed diagnostics cursor
    | .exhausted => .exhausted

instance : Monad Parser where
  pure := give
  bind := andThen

/-- The reply of a rule that has no fuel left. -/
def exhausted : Parser α :=
  fun _ => .exhausted

/-- Reports a problem at a token and goes on. -/
def report (token : Token) (problem : Problem) : Parser Unit :=
  fun cursor => .ok () [.atToken token problem] cursor

/-- Reports a problem at the next token and goes on. -/
def reportHere (problem : Problem) : Parser Unit :=
  fun cursor => .ok () [.atToken cursor.peek problem] cursor

/-- Reports at the next token what was expected there, and gives up. -/
def fail (expectation : Expectation) : Parser α :=
  fun cursor => .failed [.atToken cursor.peek (.expected expectation)] cursor

def atEnd : Parser Bool :=
  fun cursor => .ok cursor.rest.isEmpty [] cursor

def nextIs (kind : TokenKind) : Parser Bool :=
  fun cursor => .ok (cursor.rest.head?.any (·.kind == kind)) [] cursor

/-- Reads the next token if a choice on its kind succeeds. -/
def acceptBy (choose : TokenKind → Option α) : Parser (Option (Token × α)) :=
  fun cursor =>
    match cursor.rest with
    | [] => .ok none [] cursor
    | token :: rest =>
      match choose token.kind with
      | none => .ok none [] cursor
      | some choice => .ok (some (token, choice)) [] { cursor with rest }

/-- Reads the next token if it is of a kind. -/
def accept (kind : TokenKind) : Parser (Option Token) :=
  fun cursor =>
    match cursor.rest with
    | [] => .ok none [] cursor
    | token :: rest =>
      if token.kind = kind then .ok (some token) [] { cursor with rest }
      else .ok none [] cursor

/-- Reads the next token, which must be of a kind. -/
def require (kind : TokenKind) (expectation : Expectation) : Parser Token := do
  match ← accept kind with
  | some token => pure token
  | none => fail expectation

/-- A keyword that starts a statement or declaration. -/
def startsStatement : TokenKind → Bool
  | .keyword .classWord | .keyword .funWord | .keyword .varWord | .keyword .forWord
  | .keyword .ifWord | .keyword .whileWord | .keyword .printWord | .keyword .returnWord => true
  | _ => false

/-- Skips tokens after a skipped one until the next statement seems to start. -/
def skipPast (skipped : Token) : List Token → List Token
  | [] => []
  | next :: rest =>
    if skipped.kind = .symbol .semicolon || startsStatement next.kind then next :: rest
    else skipPast next rest

/-- Skips one token, and then to the start of the next statement. -/
def synchronize : List Token → List Token
  | [] => []
  | token :: rest => skipPast token rest

/-- Where a parser gives up, skips to the next statement and gives nothing. -/
def recovering (rule : Parser α) : Parser (Option α) :=
  fun cursor =>
    match rule cursor with
    | .ok value diagnostics cursor => .ok (some value) diagnostics cursor
    | .failed diagnostics cursor =>
      .ok none diagnostics { cursor with rest := synchronize cursor.rest }
    | .exhausted => .exhausted

end Parser

end Loxley
