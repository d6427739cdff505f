import Loxley.Datum.Reader
import Loxley.Markdown

/-!
# Test cases in documents

A heading that starts with `Test: ` opens a test case, which goes on to the next such heading. Its
fenced blocks hold the input, of which there is exactly one, and what is expected of it.
-/

set_option autoImplicit false

namespace Loxley

/-- What the input of a test case is. -/
inductive InputKind where
  | expression
  | program
deriving DecidableEq, Repr

def InputKind.language : InputKind → Text
  | expression => "lox-expr"
  | program => "lox-program"

def InputKind.ofLanguage? (text : Text) : Option InputKind :=
  [expression, program].find? (·.language == text)

/-- What is expected of an input. -/
inductive AssertionKind where
  /-- Patterns for the outlines of the input. -/
  | outline
  | output
  | compileError
  | runtimeError
deriving DecidableEq, Repr

def AssertionKind.language : AssertionKind → Text
  | outline => "ast"
  | output => "execute"
  | compileError => "compile-error"
  | runtimeError => "runtime-error"

def AssertionKind.ofLanguage? (text : Text) : Option AssertionKind :=
  [outline, output, compileError, runtimeError].find? (·.language == text)

/-- An expectation, with the line on which it stands. -/
structure Assertion where
  kind : AssertionKind
  content : Text
  line : Nat
  /-- The patterns for outlines; other kinds have none. -/
  patterns : List Datum := []

structure TestCase where
  name : Text
  inputKind : InputKind
  input : Text
  assertions : List Assertion

namespace TestCase

/-- What is wrong with a document. -/
inductive Problem where
  | outsideTest (line : Nat) (language : Text)
  | secondInput (line : Nat) (name : Text)
  | unreadablePattern (line : Nat) (name : Text) (reason : Datum.ReadError)
  | unknownLanguage (line : Nat) (language name : Text)
  | noInput (name : Text)
  | noAssertions (name : Text)
deriving DecidableEq

def Problem.text : Problem → Text
  | outsideTest line language =>
    ("line " : Text) ++ Text.ofNat line ++ (": " : Text) ++ language ++
      (" fence found outside of test case" : Text)
  | secondInput line name =>
    ("line " : Text) ++ Text.ofNat line ++ (": multiple input fences found in test '" : Text) ++
      name ++ ("'" : Text)
  | unreadablePattern line name reason =>
    ("line " : Text) ++ Text.ofNat line ++
      (": failed to parse Sexy assertion in test '" : Text) ++ name ++ ("': " : Text) ++
      reason.message
  | unknownLanguage line language name =>
    ("line " : Text) ++ Text.ofNat line ++ (": unknown fence language '" : Text) ++ language ++
      ("' in test '" : Text) ++ name ++ ("'" : Text)
  | noInput name => ("test '" : Text) ++ name ++ ("' has no input fence" : Text)
  | noAssertions name => ("test '" : Text) ++ name ++ ("' has no assertion fences" : Text)

/-- A problem, and whether it showed only at the end of the document. -/
inductive ExtractError where
  | within (problem : Problem)
  | atEnd (problem : Problem)
deriving DecidableEq

def ExtractError.message : ExtractError → Text
  | within problem => ("error walking markdown AST: " : Text) ++ problem.text
  | atEnd problem => problem.text

/-- A test case while its blocks are read. -/
structure Draft where
  name : Text
  input : Option (InputKind × Text) := none
  assertions : List Assertion := []

/-- The test case of a draft, which needs an input and an assertion. -/
def Draft.complete (draft : Draft) : Except Problem TestCase :=
  match draft.input with
  | none => .error (.noInput draft.name)
  | some (inputKind, input) =>
    if draft.assertions.isEmpty then .error (.noAssertions draft.name)
    else .ok { name := draft.name, inputKind, input, assertions := draft.assertions }

/-- The content of a block without the newlines at its end. -/
def trimContent (content : Text) : Text :=
  Text.trimRight (· == Text.newline) content

/-- The assertion in a block; the patterns for outlines must be readable. -/
def readAssertion (name : Text) (kind : AssertionKind) (content : Text) (line : Nat) :
    Except Problem Assertion :=
  match kind with
  | .outline =>
    match Datum.readAll content with
    | .error reason => .error (.unreadablePattern line name reason)
    | .ok patterns => .ok { kind, content, line, patterns }
  | _ => .ok { kind, content, line }

/-- Adds a fenced block to a draft. One without a language is only a comment. -/
def Draft.addFence (draft : Draft) (language content : Text) (line : Nat) :
    Except Problem Draft :=
  match InputKind.ofLanguage? language with
  | some kind =>
    match draft.input with
    | some _ => .error (.secondInput line draft.name)
    | none => .ok { draft with input := some (kind, trimContent content) }
  | none =>
    match AssertionKind.ofLanguage? language with
    | some kind =>
      match readAssertion draft.name kind (trimContent content) line with
      | .error problem => .error problem
      | .ok assertion => .ok { draft with assertions := draft.assertions ++ [assertion] }
    | none =>
      if language.isEmpty then .ok draft
      else .error (.unknownLanguage line language draft.name)

/-- The beginning of a heading that opens a test case. -/
def headingMark : Text := "Test: "

/-- The test cases of a document from some block on, after an open draft. -/
def collect : Option Draft → List Markdown.Block → Except ExtractError (List TestCase)
  | none, [] => .ok []
  | some draft, [] =>
    match draft.complete with
    | .error problem => .error (.atEnd problem)
    | .ok testCase => .ok [testCase]
  | current, .heading text :: rest =>
    match Text.strip? headingMark text with
    | none => collect current rest
    | some name =>
      match current with
      | none => collect (some { name }) rest
      | some draft =>
        match draft.complete with
        | .error problem => .error (.within problem)
        | .ok testCase =>
          match collect (some { name }) rest with
          | .error problem => .error problem
          | .ok testCases => .ok (testCase :: testCases)
  | none, .fence language _ line :: rest =>
    if language.isEmpty then collect none rest
    else .error (.within (.outsideTest line language))
  | some draft, .fence language content line :: rest =>
    match draft.addFence language content line with
    | .error problem => .error (.within problem)
    | .ok next => collect (some next) rest

/-- The test cases of the blocks of a document. -/
def ofBlocks (blocks : List Markdown.Block) : Except ExtractError (List TestCase) :=
  collect none blocks

/-- The test cases of a Markdown document. -/
def extract (document : Text) : Except ExtractError (List TestCase) :=
  ofBlocks (Markdown.blocks document)

end TestCase

end Loxley
