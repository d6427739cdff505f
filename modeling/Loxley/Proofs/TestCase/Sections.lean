import Loxley.Proofs.Datum.Nesting
import Loxley.TestCase
import Mathlib.Data.List.DropRight
import Mathlib.Data.List.Forall2

/-!
# Documents by sections

The blocks of a document fall into those before its first test case and the sections of its test
cases, each from the heading that opens it up to the next such heading. This division is unique.
Which sections are well formed, and what test case a section stands for, is said here without
reference to how blocks are read.
-/

set_option autoImplicit false

namespace Loxley.TestCase

open Markdown (Block)

/-! ## The division into sections -/

/-- Only a heading with the mark at its beginning opens a test case. -/
def Opens : Block → Prop
  | .heading text => headingMark <+: text
  | .fence .. => False

/-- A test case in a document: the name after the mark of its heading, and the blocks up to the next
heading that opens a test case. Other headings do not end it. -/
@[ext]
structure Section where
  name : Text
  body : List Block
  unopened : ∀ block ∈ body, ¬ Opens block

def Section.blocks (part : Section) : List Block :=
  .heading (headingMark ++ part.name) :: part.body

/-- A document: what stands before the first test case, and the test cases. -/
@[ext]
structure Document where
  preamble : List Block
  sections : List Section
  unopened : ∀ block ∈ preamble, ¬ Opens block

def Document.blocks (document : Document) : List Block :=
  document.preamble ++ document.sections.flatMap Section.blocks

theorem strip?_append (name : Text) :
    Text.strip? headingMark (headingMark ++ name) = some name := by
  simp [Text.strip?]

theorem strip?_of_not_opens {text : Text} (unopened : ¬ Opens (.heading text)) :
    Text.strip? headingMark text = none := by
  rw [Text.strip?, if_neg]
  rwa [List.isPrefixOf_iff_prefix]

theorem opens_heading_iff {block : Block} :
    Opens block ↔ ∃ name, block = .heading (headingMark ++ name) := by
  cases block with
  | heading text =>
      constructor
      · rintro ⟨name, rfl⟩
        exact ⟨name, rfl⟩
      · rintro ⟨name, same⟩
        cases same
        exact List.prefix_append headingMark name
  | fence language content line => simp [Opens]

theorem append_unique {body other rest more : List Block}
    (unopened : ∀ block ∈ body, ¬ Opens block) (unopenedToo : ∀ block ∈ other, ¬ Opens block)
    (starts : ∀ block ∈ rest.head?, Opens block) (startsToo : ∀ block ∈ more.head?, Opens block)
    (same : body ++ rest = other ++ more) : body = other ∧ rest = more := by
  -- The shorter beginning cannot end earlier, since what follows it starts with such a heading.
  induction body generalizing other with
  | nil =>
      cases other with
      | nil => exact ⟨rfl, same⟩
      | cons block other =>
          rw [List.nil_append] at same
          exact absurd (starts block (by rw [same]; rfl)) (unopenedToo block List.mem_cons_self)
  | cons block body ih =>
      cases other with
      | nil =>
          rw [List.nil_append] at same
          exact absurd (startsToo block (by rw [← same]; rfl)) (unopened block List.mem_cons_self)
      | cons first other =>
          injection same with same tails
          obtain ⟨rfl, rfl⟩ := ih (List.forall_mem_cons.mp unopened).2
            (List.forall_mem_cons.mp unopenedToo).2 tails
          exact ⟨by rw [same], rfl⟩

theorem opens_head?_sections (parts : List Section) :
    ∀ block ∈ (parts.flatMap Section.blocks).head?, Opens block := by
  cases parts with
  | nil => simp
  | cons part parts =>
      rintro block ⟨⟩
      exact opens_heading_iff.mpr ⟨part.name, rfl⟩

theorem sections_unique {parts others : List Section}
    (same : parts.flatMap Section.blocks = others.flatMap Section.blocks) : parts = others := by
  induction parts generalizing others with
  | nil =>
      cases others with
      | nil => rfl
      | cons other others => cases same
  | cons part parts ih =>
      cases others with
      | nil => cases same
      | cons other others =>
          injection same with heading tails
          injection heading with heading
          obtain ⟨body, rest⟩ := append_unique part.unopened other.unopened
            (opens_head?_sections parts) (opens_head?_sections others) tails
          rw [ih rest, Section.ext (List.append_cancel_left heading) body]

theorem Document.blocks_injective : Function.Injective Document.blocks := by
  intro document other same
  obtain ⟨preamble, rest⟩ := append_unique document.unopened other.unopened
    (opens_head?_sections document.sections) (opens_head?_sections other.sections) same
  exact Document.ext preamble (sections_unique rest)

theorem Document.blocks_surjective : Function.Surjective Document.blocks := by
  intro blocks
  induction blocks with
  | nil => exact ⟨⟨[], [], by simp⟩, rfl⟩
  | cons block rest ih =>
      obtain ⟨⟨preamble, parts, unopened⟩, rfl⟩ := ih
      by_cases opens : Opens block
      · obtain ⟨name, rfl⟩ := opens_heading_iff.mp opens
        exact ⟨⟨[], ⟨name, preamble, unopened⟩ :: parts, by simp⟩, rfl⟩
      · exact ⟨⟨block :: preamble, parts, List.forall_mem_cons.mpr ⟨opens, unopened⟩⟩, rfl⟩

/-- Every sequence of blocks falls into sections in exactly one way. -/
theorem Document.blocks_bijective : Function.Bijective Document.blocks :=
  ⟨blocks_injective, blocks_surjective⟩

/-! ## What sections stand for -/

def inputLanguages : List Text := ["lox-expr", "lox-program"]

def assertionLanguages : List Text := ["ast", "execute", "compile-error", "runtime-error"]

def isFenceIn (languages : List Text) : Block → Bool
  | .heading _ => false
  | .fence language _ _ => languages.contains language

/-- The fenced blocks in some languages, in order. -/
def fencesIn (languages : List Text) (blocks : List Block) : List Block :=
  blocks.filter (isFenceIn languages)

/-- A block that is no fence in a language unknown to test cases. -/
def Known : Block → Prop
  | .heading _ => True
  | .fence language _ _ =>
    language = [] ∨ language ∈ inputLanguages ∨ language ∈ assertionLanguages

/-- A block that is no fence with a language. -/
def Plain : Block → Prop
  | .heading _ => True
  | .fence language _ _ => language = []

/-- A section with exactly one input and at least one assertion. Other fenced blocks have no
language, and the patterns for outlines are readable. -/
structure Section.WellFormed (part : Section) : Prop where
  oneInput : ∃ block, fencesIn inputLanguages part.body = [block]
  someAssertion : fencesIn assertionLanguages part.body ≠ []
  known : ∀ block ∈ part.body, Known block
  readable : ∀ content line, .fence "ast" content line ∈ part.body →
    ∃ patterns, Datum.readAll content = .ok patterns

/-- A document with well-formed sections, before which no fenced block has a language. -/
structure Document.WellFormed (document : Document) : Prop where
  plain : ∀ block ∈ document.preamble, Plain block
  each : ∀ part ∈ document.sections, part.WellFormed

/-- A text is all of a content but the newlines at its end. -/
structure Trimmed (content text : Text) : Prop where
  rest : ∃ count, content = text ++ List.replicate count Text.newline
  ends : text.getLast? ≠ some Text.newline

/-- An assertion holds what a fenced block does. Only patterns for outlines are read. -/
inductive Holds : Block → Assertion → Prop
  | outline {content text : Text} {line : Nat} {patterns : List Datum}
      (trimmed : Trimmed content text) (read : Datum.readAll content = .ok patterns) :
      Holds (.fence "ast" content line) { kind := .outline, content := text, line, patterns }
  | verbatim {kind : AssertionKind} {content text : Text} {line : Nat}
      (notOutline : kind ≠ .outline) (trimmed : Trimmed content text) :
      Holds (.fence kind.language content line) { kind, content := text, line, patterns := [] }

/-- A test case has the name, the input and all the assertions of a section, in order. -/
structure Section.Gives (part : Section) (testCase : TestCase) : Prop where
  name : testCase.name = part.name
  input : ∃ content line, fencesIn inputLanguages part.body =
      [.fence testCase.inputKind.language content line] ∧ Trimmed content testCase.input
  assertions : List.Forall₂ Holds (fencesIn assertionLanguages part.body) testCase.assertions

end Loxley.TestCase
