import Loxley.Proofs.TestCase.Sections

/-!
# Test cases are those of the sections

Reading the blocks of a document keeps a draft of the current test case, which is checked only when
the next heading or the end comes. What it does with a section is what the section says: it succeeds
on well-formed sections only, and each gives its own test case.
-/

set_option autoImplicit false

namespace Loxley.TestCase

open Markdown (Block)

/-! ## Content -/

theorem trimmed_iff {content text : Text} : Trimmed content text ↔ text = trimContent content := by
  change Trimmed content text ↔ text = content.rdropWhile (· == Text.newline)
  constructor
  · rintro ⟨⟨count, rfl⟩, ends⟩
    induction count with
    | zero =>
        rw [List.replicate_zero, List.append_nil, eq_comm, List.rdropWhile_eq_self_iff]
        intro nonempty newline
        rw [List.getLast?_eq_some_getLast nonempty, eq_of_beq newline] at ends
        exact ends rfl
    | succ count ih =>
        rw [List.replicate_succ', ← List.append_assoc, List.rdropWhile_concat_pos _ _ _ (by simp)]
        exact ih
  · rintro rfl
    have newlines : ∀ byte ∈ content.rtakeWhile (· == Text.newline), byte = Text.newline :=
      fun byte member => by simpa using List.mem_rtakeWhile_imp member
    refine ⟨⟨(content.rtakeWhile (· == Text.newline)).length, ?_⟩, fun ends => ?_⟩
    · rw [← List.eq_replicate_of_mem newlines, List.rdropWhile_append_rtakeWhile]
    · have nonempty : content.rdropWhile (· == Text.newline) ≠ [] := by
        intro empty
        simp [empty] at ends
      rw [List.getLast?_eq_some_getLast nonempty] at ends
      exact List.rdropWhile_last_not _ _ nonempty (by simpa using ends)

theorem Trimmed.readAll_iff {content text : Text} (trimmed : Trimmed content text)
    {data : List Datum} : Datum.readAll content = .ok data ↔ Datum.readAll text = .ok data := by
  obtain ⟨⟨count, rfl⟩, _⟩ := trimmed
  induction count with
  | zero => rw [List.replicate_zero, List.append_nil]
  | succ count ih =>
      rw [List.replicate_succ', ← List.append_assoc]
      exact Datum.readAll_append_newline_iff.trans ih

/-! ## Languages -/

@[simp]
theorem ofLanguage?_input (kind : InputKind) : InputKind.ofLanguage? kind.language = some kind := by
  cases kind <;> rfl

@[simp]
theorem ofLanguage?_assertion (kind : AssertionKind) :
    AssertionKind.ofLanguage? kind.language = some kind := by
  cases kind <;> rfl

theorem inputLanguage_injective : Function.Injective InputKind.language := by
  intro kind other same
  have found := ofLanguage?_input kind
  rw [same, ofLanguage?_input] at found
  exact (Option.some.inj found).symm

theorem assertionLanguage_injective : Function.Injective AssertionKind.language := by
  intro kind other same
  have found := ofLanguage?_assertion kind
  rw [same, ofLanguage?_assertion] at found
  exact (Option.some.inj found).symm

theorem mem_inputLanguages_iff {language : Text} :
    language ∈ inputLanguages ↔ ∃ kind : InputKind, kind.language = language := by
  constructor
  · intro member
    simp only [inputLanguages, List.mem_cons, List.not_mem_nil, or_false] at member
    rcases member with rfl | rfl
    exacts [⟨.expression, rfl⟩, ⟨.program, rfl⟩]
  · rintro ⟨kind, rfl⟩
    cases kind <;> simp [inputLanguages, InputKind.language]

theorem mem_assertionLanguages_iff {language : Text} :
    language ∈ assertionLanguages ↔ ∃ kind : AssertionKind, kind.language = language := by
  constructor
  · intro member
    simp only [assertionLanguages, List.mem_cons, List.not_mem_nil, or_false] at member
    rcases member with rfl | rfl | rfl | rfl
    exacts [⟨.outline, rfl⟩, ⟨.output, rfl⟩, ⟨.compileError, rfl⟩, ⟨.runtimeError, rfl⟩]
  · rintro ⟨kind, rfl⟩
    cases kind <;> simp [assertionLanguages, AssertionKind.language]

theorem find?_language_eq_none {Kind : Type} {kinds : List Kind} {spelling : Kind → Text}
    {language : Text} (other : ¬ ∃ kind, spelling kind = language) :
    kinds.find? (spelling · == language) = none := by
  rw [List.find?_eq_none]
  intro kind _ same
  exact other ⟨kind, eq_of_beq same⟩

section Fences

variable {languages : List Text} {language content : Text} {line : Nat} {blocks : List Block}

theorem fencesIn_of_mem (known : language ∈ languages) :
    fencesIn languages (.fence language content line :: blocks) =
      .fence language content line :: fencesIn languages blocks :=
  List.filter_cons_of_pos (by simpa [isFenceIn] using known)

theorem fencesIn_of_not_mem (other : language ∉ languages) :
    fencesIn languages (.fence language content line :: blocks) = fencesIn languages blocks :=
  List.filter_cons_of_neg (by simpa [isFenceIn] using other)

theorem mem_fencesIn_iff {block : Block} :
    block ∈ fencesIn languages blocks ↔ block ∈ blocks ∧
      ∃ language content line, block = .fence language content line ∧ language ∈ languages := by
  rw [fencesIn, List.mem_filter]
  cases block with
  | heading text => simp [isFenceIn]
  | fence language content line => simp [isFenceIn]

end Fences

/-! ## One block -/

/-- The input of a draft after some fenced blocks in languages of inputs. -/
inductive Finds : Option (InputKind × Text) → List Block → Option (InputKind × Text) → Prop
  | kept {input : Option (InputKind × Text)} : Finds input [] input
  | found {kind : InputKind} {content text : Text} {line : Nat} (trimmed : Trimmed content text) :
      Finds none [.fence kind.language content line] (some (kind, text))

theorem finds_nil_iff {old new : Option (InputKind × Text)} : Finds old [] new ↔ new = old := by
  constructor
  · intro finds
    cases finds
    rfl
  · rintro rfl
    exact .kept

theorem finds_cons_iff {old new : Option (InputKind × Text)} {kind : InputKind} {content : Text}
    {line : Nat} {fences : List Block} :
    Finds old (.fence kind.language content line :: fences) new ↔
      old = none ∧ Finds (some (kind, trimContent content)) fences new := by
  constructor
  · intro finds
    generalize same : kind.language = language at finds
    cases finds with
    | found trimmed =>
        cases inputLanguage_injective same
        cases trimmed_iff.mp trimmed
        exact ⟨rfl, .kept⟩
  · rintro ⟨rfl, finds⟩
    -- A draft that has an input takes no other.
    cases finds with
    | kept => exact .found (trimmed_iff.mpr rfl)

theorem readAssertion_eq_ok_iff {name content : Text} {kind : AssertionKind} {line : Nat}
    {assertion : Assertion} :
    readAssertion name kind (trimContent content) line = .ok assertion ↔
      Holds (.fence kind.language content line) assertion := by
  have trimmed : Trimmed content (trimContent content) := trimmed_iff.mpr rfl
  constructor
  · intro read
    cases kind with
    | outline =>
        simp only [readAssertion] at read
        split at read
        · cases read
        · next patterns found =>
            cases read
            exact .outline trimmed (trimmed.readAll_iff.mpr found)
    | output | compileError | runtimeError =>
        cases read
        exact .verbatim (by decide) trimmed
  · intro holds
    generalize same : kind.language = language at holds
    cases holds with
    | outline others read =>
        have isOutline : kind = .outline := assertionLanguage_injective same
        cases trimmed_iff.mp others
        rw [isOutline, readAssertion, trimmed.readAll_iff.mp read]
    | verbatim notOutline others =>
        cases assertionLanguage_injective same
        cases trimmed_iff.mp others
        cases kind with
        | outline => exact absurd rfl notOutline
        | output | compileError | runtimeError => rfl

/-- What becomes of a draft over the blocks of a section. -/
structure Draft.Grows (draft : Draft) (body : List Block) (next : Draft) : Prop where
  name : next.name = draft.name
  input : Finds draft.input (fencesIn inputLanguages body) next.input
  assertions : ∃ added, next.assertions = draft.assertions ++ added ∧
    List.Forall₂ Holds (fencesIn assertionLanguages body) added
  known : ∀ block ∈ body, Known block

section Steps

variable {draft next : Draft} {block : Block} {body : List Block} {language content : Text}
  {line : Nat}

theorem Draft.grows_nil_iff : draft.Grows [] next ↔ next = draft := by
  constructor
  · rintro ⟨name, input, ⟨added, assertions, holds⟩, _⟩
    cases holds
    rw [List.append_nil] at assertions
    have input := finds_nil_iff.mp input
    obtain ⟨_, _, _⟩ := draft
    obtain ⟨_, _, _⟩ := next
    cases name
    cases input
    cases assertions
    rfl
  · rintro rfl
    exact ⟨rfl, .kept, ⟨[], (List.append_nil _).symm, .nil⟩, by simp⟩

/-- Headings within a section, and fenced blocks without a language, leave a draft as it is. -/
theorem Draft.grows_skip_iff (known : Known block)
    (notInput : isFenceIn inputLanguages block = false)
    (notAssertion : isFenceIn assertionLanguages block = false) :
    draft.Grows (block :: body) next ↔ draft.Grows body next := by
  have inputs : fencesIn inputLanguages (block :: body) = fencesIn inputLanguages body :=
    List.filter_cons_of_neg (by simp [notInput])
  have assertions :
      fencesIn assertionLanguages (block :: body) = fencesIn assertionLanguages body :=
    List.filter_cons_of_neg (by simp [notAssertion])
  constructor
  · rintro ⟨name, input, added, each⟩
    exact ⟨name, inputs ▸ input, assertions ▸ added, (List.forall_mem_cons.mp each).2⟩
  · rintro ⟨name, input, added, each⟩
    exact ⟨name, inputs ▸ input, assertions ▸ added, List.forall_mem_cons.mpr ⟨known, each⟩⟩

theorem Draft.grows_input_iff (kind : InputKind) :
    draft.Grows (.fence kind.language content line :: body) next ↔
      draft.input = none ∧
        Grows { draft with input := some (kind, trimContent content) } body next := by
  have isInput : kind.language ∈ inputLanguages := mem_inputLanguages_iff.mpr ⟨kind, rfl⟩
  have notAssertion : kind.language ∉ assertionLanguages := by cases kind <;> decide
  constructor
  · rintro ⟨name, input, added, each⟩
    rw [fencesIn_of_mem isInput, finds_cons_iff] at input
    rw [fencesIn_of_not_mem notAssertion] at added
    exact ⟨input.1, name, input.2, added, (List.forall_mem_cons.mp each).2⟩
  · rintro ⟨noInput, name, input, added, each⟩
    refine ⟨name, ?_, ?_, List.forall_mem_cons.mpr ⟨.inr (.inl isInput), each⟩⟩
    · rw [fencesIn_of_mem isInput, finds_cons_iff]
      exact ⟨noInput, input⟩
    · rwa [fencesIn_of_not_mem notAssertion]

theorem Draft.grows_assertion_iff (kind : AssertionKind) :
    draft.Grows (.fence kind.language content line :: body) next ↔
      ∃ assertion, Holds (.fence kind.language content line) assertion ∧
        Grows { draft with assertions := draft.assertions ++ [assertion] } body next := by
  have isAssertion : kind.language ∈ assertionLanguages :=
    mem_assertionLanguages_iff.mpr ⟨kind, rfl⟩
  have notInput : kind.language ∉ inputLanguages := by cases kind <;> decide
  constructor
  · rintro ⟨name, input, ⟨added, assertions, holds⟩, each⟩
    rw [fencesIn_of_not_mem notInput] at input
    rw [fencesIn_of_mem isAssertion, List.forall₂_cons_left_iff] at holds
    obtain ⟨assertion, others, first, rest, rfl⟩ := holds
    refine ⟨assertion, first, name, input, ⟨others, ?_, rest⟩, (List.forall_mem_cons.mp each).2⟩
    rw [assertions, List.append_assoc, List.singleton_append]
  · rintro ⟨assertion, first, name, input, ⟨others, assertions, rest⟩, each⟩
    refine ⟨name, ?_, ⟨assertion :: others, ?_, ?_⟩,
      List.forall_mem_cons.mpr ⟨.inr (.inr isAssertion), each⟩⟩
    · rwa [fencesIn_of_not_mem notInput]
    · rw [assertions, List.append_assoc, List.singleton_append]
    · rw [fencesIn_of_mem isAssertion]
      exact .cons first rest

/-- Adding a fenced block is one step of what becomes of a draft. -/
theorem Draft.grows_fence_iff :
    draft.Grows (.fence language content line :: body) next ↔
      ∃ middle, draft.addFence language content line = .ok middle ∧ middle.Grows body next := by
  by_cases isInput : language ∈ inputLanguages
  · obtain ⟨kind, rfl⟩ := mem_inputLanguages_iff.mp isInput
    rw [grows_input_iff, addFence, ofLanguage?_input]
    cases draft.input <;> simp
  have notInput : InputKind.ofLanguage? language = none :=
    find?_language_eq_none (mt mem_inputLanguages_iff.mpr isInput)
  by_cases isAssertion : language ∈ assertionLanguages
  · obtain ⟨kind, rfl⟩ := mem_assertionLanguages_iff.mp isAssertion
    rw [grows_assertion_iff, addFence, notInput, ofLanguage?_assertion]
    simp only [← @readAssertion_eq_ok_iff draft.name]
    cases readAssertion draft.name kind (trimContent content) line <;> simp
  have notAssertion : AssertionKind.ofLanguage? language = none :=
    find?_language_eq_none (mt mem_assertionLanguages_iff.mpr isAssertion)
  simp only [addFence, notInput, notAssertion]
  by_cases plain : language = []
  · have known : Known (.fence language content line) := .inl plain
    rw [grows_skip_iff known (by simpa [isFenceIn] using isInput)
      (by simpa [isFenceIn] using isAssertion)]
    simp [plain]
  · have unknown : ¬ Known (.fence language content line) := by simp [Known, *]
    have refuses : ¬ draft.Grows (.fence language content line :: body) next := fun grows =>
      unknown (grows.known _ List.mem_cons_self)
    simp [refuses, plain]

end Steps

/-! ## Runs -/

section Runs

variable {draft : Draft} {body rest : List Block} {testCases : List TestCase}

theorem collect_fence_iff {language content : Text} {line : Nat} :
    collect (some draft) (.fence language content line :: rest) = .ok testCases ↔
      ∃ middle, draft.addFence language content line = .ok middle ∧
        collect (some middle) rest = .ok testCases := by
  rw [collect]
  cases draft.addFence language content line <;> simp

/-- Blocks that open no test case go into the draft, whatever follows them. -/
theorem collect_body_iff (unopened : ∀ block ∈ body, ¬ Opens block) :
    collect (some draft) (body ++ rest) = .ok testCases ↔
      ∃ next, draft.Grows body next ∧ collect (some next) rest = .ok testCases := by
  -- The draft changes from block to block, so the statement is about every draft.
  induction body generalizing draft with
  | nil => simp [Draft.grows_nil_iff]
  | cons block body ih =>
      obtain ⟨here, later⟩ := List.forall_mem_cons.mp unopened
      cases block with
      | heading text =>
          have known : Known (.heading text) := trivial
          simp only [List.cons_append, collect, strip?_of_not_opens here,
            Draft.grows_skip_iff known rfl rfl]
          exact ih later
      | fence language content line =>
          simp only [List.cons_append, collect_fence_iff, ih later, Draft.grows_fence_iff]
          constructor
          · rintro ⟨middle, added, next, grows, collected⟩
            exact ⟨next, ⟨middle, added, grows⟩, collected⟩
          · rintro ⟨next, ⟨middle, added, grows⟩, collected⟩
            exact ⟨middle, added, next, grows, collected⟩

/-- Before the first test case, fenced blocks with a language are refused. -/
theorem collect_preamble_iff (unopened : ∀ block ∈ body, ¬ Opens block) :
    collect none (body ++ rest) = .ok testCases ↔
      (∀ block ∈ body, Plain block) ∧ collect none rest = .ok testCases := by
  induction body with
  | nil => simp
  | cons block body ih =>
      obtain ⟨here, later⟩ := List.forall_mem_cons.mp unopened
      rw [List.forall_mem_cons, List.cons_append, and_assoc, ← ih later]
      cases block with
      | heading text => simp [collect, strip?_of_not_opens here, Plain]
      | fence language content line =>
          rw [collect]
          by_cases plain : language = [] <;> simp [plain, Plain]

theorem collect_heading_iff {name : Text} :
    collect (some draft) (.heading (headingMark ++ name) :: rest) = .ok testCases ↔
      ∃ testCase others, draft.complete = .ok testCase ∧
        collect (some { name }) rest = .ok others ∧ testCases = testCase :: others := by
  simp only [collect, strip?_append]
  cases draft.complete with
  | error problem => simp
  | ok testCase => cases collect (some { name }) rest <;> simp [eq_comm]

end Runs

theorem Draft.complete_eq_ok_iff {draft : Draft} {testCase : TestCase} :
    draft.complete = .ok testCase ↔
      testCase.name = draft.name ∧ draft.input = some (testCase.inputKind, testCase.input) ∧
        testCase.assertions = draft.assertions ∧ draft.assertions ≠ [] := by
  obtain ⟨name, input, assertions⟩ := draft
  obtain ⟨caseName, inputKind, caseInput, caseAssertions⟩ := testCase
  cases input with
  | none => simp [complete]
  | some input =>
      by_cases empty : assertions = []
      · simp [complete, empty]
      · simp only [complete, List.isEmpty_iff, empty, if_false]
        constructor
        · rintro ⟨⟩
          exact ⟨rfl, rfl, rfl, empty⟩
        · rintro ⟨rfl, ⟨⟩, rfl, _⟩
          rfl

/-- Reading gets past a section with a test case. -/
def Section.Passes (part : Section) (testCase : TestCase) : Prop :=
  ∃ next, Draft.Grows { name := part.name } part.body next ∧ next.complete = .ok testCase

theorem collect_sections_iff {part : Section} {parts : List Section} {testCases : List TestCase} :
    collect (some { name := part.name }) (part.body ++ parts.flatMap Section.blocks) =
        .ok testCases ↔
      List.Forall₂ Section.Passes (part :: parts) testCases := by
  rw [collect_body_iff part.unopened, List.forall₂_cons_left_iff]
  -- A draft is checked only by what comes next: the end, or the heading of another section.
  induction parts generalizing part testCases with
  | nil =>
      constructor
      · rintro ⟨next, grows, collected⟩
        simp only [List.flatMap_nil, collect] at collected
        split at collected
        · cases collected
        · next testCase completed =>
            cases collected
            exact ⟨testCase, [], ⟨next, grows, completed⟩, .nil, rfl⟩
      · rintro ⟨testCase, others, ⟨next, grows, completed⟩, ⟨⟩, rfl⟩
        exact ⟨next, grows, by simp [collect, completed]⟩
  | cons other parts ih =>
      have rest : ∀ others, collect (some { name := other.name })
          (other.body ++ parts.flatMap Section.blocks) = .ok others ↔
          List.Forall₂ Section.Passes (other :: parts) others := fun others => by
        rw [collect_body_iff other.unopened, List.forall₂_cons_left_iff, ih]
      simp only [List.flatMap_cons, Section.blocks, List.cons_append, collect_heading_iff, rest]
      constructor
      · rintro ⟨next, grows, testCase, others, completed, passes, rfl⟩
        exact ⟨testCase, others, ⟨next, grows, completed⟩, passes, rfl⟩
      · rintro ⟨testCase, others, ⟨next, grows, completed⟩, passes, rfl⟩
        exact ⟨next, grows, testCase, others, completed, passes, rfl⟩

theorem ofBlocks_eq_ok_iff {document : Document} {testCases : List TestCase} :
    ofBlocks document.blocks = .ok testCases ↔
      (∀ block ∈ document.preamble, Plain block) ∧
        List.Forall₂ Section.Passes document.sections testCases := by
  rw [ofBlocks, Document.blocks, collect_preamble_iff document.unopened]
  refine and_congr_right fun _ => ?_
  cases document.sections with
  | nil => simp [collect, eq_comm]
  | cons part parts =>
      rw [← collect_sections_iff, List.flatMap_cons, Section.blocks, List.cons_append, collect,
        strip?_append]

/-! ## Sections -/

theorem Holds.readable {content : Text} {line : Nat} {assertion : Assertion}
    (holds : Holds (.fence "ast" content line) assertion) :
    ∃ patterns, Datum.readAll content = .ok patterns := by
  change Holds (.fence AssertionKind.outline.language content line) assertion at holds
  generalize same : AssertionKind.outline.language = language at holds
  cases holds with
  | outline _ read => exact ⟨_, read⟩
  | verbatim notOutline _ => exact absurd (assertionLanguage_injective same).symm notOutline

theorem exists_forall₂_iff {α β : Type} {relation : α → β → Prop} {items : List α} :
    (∃ others, List.Forall₂ relation items others) ↔
      ∀ item ∈ items, ∃ other, relation item other := by
  induction items with
  | nil => simp [List.forall₂_nil_left_iff]
  | cons item items ih =>
      simp only [List.forall₂_cons_left_iff, List.forall_mem_cons, ← ih]
      constructor
      · rintro ⟨_, other, others, here, later, rfl⟩
        exact ⟨⟨other, here⟩, others, later⟩
      · rintro ⟨⟨other, here⟩, others, later⟩
        exact ⟨_, other, others, here, later, rfl⟩

theorem Finds.of_none {fences : List Block} {kind : InputKind} {text : Text}
    (finds : Finds none fences (some (kind, text))) :
    ∃ content line, fences = [.fence kind.language content line] ∧ Trimmed content text := by
  cases finds with
  | found trimmed => exact ⟨_, _, rfl, trimmed⟩

namespace Section

variable {part : Section} {testCase : TestCase}

theorem Passes.gives (passes : part.Passes testCase) : part.Gives testCase := by
  obtain ⟨next, ⟨name, input, ⟨added, assertions, holds⟩, _⟩, completed⟩ := passes
  obtain ⟨sameName, sameInput, sameAssertions, _⟩ := Draft.complete_eq_ok_iff.mp completed
  rw [sameInput] at input
  rw [List.nil_append] at assertions
  rw [← assertions, ← sameAssertions] at holds
  exact ⟨sameName.trans name, input.of_none, holds⟩

theorem Passes.wellFormed (passes : part.Passes testCase) : part.WellFormed := by
  obtain ⟨_, ⟨content, line, oneInput, _⟩, holds⟩ := passes.gives
  obtain ⟨next, grows, completed⟩ := passes
  obtain ⟨_, _, sameAssertions, nonempty⟩ := Draft.complete_eq_ok_iff.mp completed
  refine ⟨⟨_, oneInput⟩, fun empty => ?_, grows.known, fun content line member => ?_⟩
  · rw [empty, List.forall₂_nil_left_iff, sameAssertions] at holds
    exact nonempty holds
  · have fence : .fence "ast" content line ∈ fencesIn assertionLanguages part.body :=
      mem_fencesIn_iff.mpr ⟨member, _, _, _, rfl, List.mem_cons_self⟩
    obtain ⟨assertion, held⟩ := exists_forall₂_iff.mp ⟨_, holds⟩ _ fence
    exact held.readable

theorem WellFormed.exists_gives (wellFormed : part.WellFormed) :
    ∃ testCase, part.Gives testCase := by
  obtain ⟨block, oneInput⟩ := wellFormed.oneInput
  have isInput : block ∈ fencesIn inputLanguages part.body := by simp [oneInput]
  obtain ⟨_, language, content, line, rfl, known⟩ := mem_fencesIn_iff.mp isInput
  obtain ⟨inputKind, rfl⟩ := mem_inputLanguages_iff.mp known
  have each : ∀ block ∈ fencesIn assertionLanguages part.body,
      ∃ assertion, Holds block assertion := by
    intro block member
    obtain ⟨inBody, language, content, line, rfl, known⟩ := mem_fencesIn_iff.mp member
    obtain ⟨kind, rfl⟩ := mem_assertionLanguages_iff.mp known
    by_cases isOutline : kind = .outline
    · subst isOutline
      obtain ⟨patterns, read⟩ := wellFormed.readable content line inBody
      exact ⟨_, .outline (trimmed_iff.mpr rfl) read⟩
    · exact ⟨_, .verbatim isOutline (trimmed_iff.mpr rfl)⟩
  obtain ⟨assertions, holds⟩ := exists_forall₂_iff.mpr each
  exact ⟨{ name := part.name, inputKind, input := trimContent content, assertions }, rfl,
    ⟨content, line, oneInput, trimmed_iff.mpr rfl⟩, holds⟩

theorem passes_iff : part.Passes testCase ↔ part.WellFormed ∧ part.Gives testCase := by
  refine ⟨fun passes => ⟨passes.wellFormed, passes.gives⟩, ?_⟩
  rintro ⟨wellFormed, name, ⟨content, line, oneInput, trimmed⟩, holds⟩
  have nonempty : testCase.assertions ≠ [] := by
    intro empty
    rw [empty, List.forall₂_nil_right_iff] at holds
    exact wellFormed.someAssertion holds
  refine ⟨{ name := testCase.name, input := some (testCase.inputKind, testCase.input),
            assertions := testCase.assertions },
    ⟨name, ?_, ⟨_, rfl, holds⟩, wellFormed.known⟩,
    Draft.complete_eq_ok_iff.mpr ⟨rfl, rfl, rfl, nonempty⟩⟩
  rw [oneInput]
  exact .found trimmed

theorem forall₂_passes_iff {parts : List Section} {testCases : List TestCase} :
    List.Forall₂ Passes parts testCases ↔
      (∀ part ∈ parts, part.WellFormed) ∧ List.Forall₂ Gives parts testCases := by
  rw [← List.forall₂_and_left]
  exact ⟨.imp fun _ _ => passes_iff.mp, .imp fun _ _ => passes_iff.mpr⟩

end Section

/-! ## Documents -/

theorem Document.wellFormed_iff {document : Document} :
    document.WellFormed ↔ (∀ block ∈ document.preamble, Plain block) ∧
      ∀ part ∈ document.sections, part.WellFormed :=
  ⟨fun ⟨plain, each⟩ => ⟨plain, each⟩, fun ⟨plain, each⟩ => ⟨plain, each⟩⟩

/--
Every sequence of blocks falls into sections in one way. Its test cases are read exactly if the
sections are well formed and no fenced block with a language stands before them. The result is then
one test case for each section, in order, with all that the section says.
-/
theorem extraction_follows_sections :
    Function.Bijective Document.blocks ∧
    ∀ document : Document,
      ((∃ testCases, ofBlocks document.blocks = .ok testCases) ↔ document.WellFormed) ∧
      ∀ testCases, ofBlocks document.blocks = .ok testCases ↔
        document.WellFormed ∧ List.Forall₂ Section.Gives document.sections testCases := by
  refine ⟨Document.blocks_bijective, fun document => ?_⟩
  have reads : ∀ testCases, ofBlocks document.blocks = .ok testCases ↔
      document.WellFormed ∧ List.Forall₂ Section.Gives document.sections testCases := by
    intro testCases
    rw [ofBlocks_eq_ok_iff, Section.forall₂_passes_iff, Document.wellFormed_iff, and_assoc]
  refine ⟨⟨?_, fun wellFormed => ?_⟩, reads⟩
  · rintro ⟨testCases, read⟩
    exact ((reads testCases).mp read).1
  · obtain ⟨testCases, gives⟩ := exists_forall₂_iff.mpr fun part member =>
      (wellFormed.each part member).exists_gives
    exact ⟨testCases, (reads testCases).mpr ⟨wellFormed, gives⟩⟩

end Loxley.TestCase
