import Loxley.Proofs.Parser.Completeness
import Loxley.Proofs.Session

/-!
# The words of a source

A source in which reading finds nothing wrong consists of words, the tokens before its end marker.
Whether it is a program or an expression depends on these words only, and is decided by the grammar.
-/

set_option autoImplicit false

namespace Loxley.Source

/-- A source that consists of some words, without any diagnostic. -/
structure Words (source : Text) (words : List Token) : Prop where
  scanned : ∃ finish, finish.kind = .endOfFile ∧
    Scan.ofSource source = { tokens := words ++ [finish], diagnostics := [] }
  inner : ∀ word ∈ words, word.kind ≠ .endOfFile

section Parsing

variable {α : Type} {rule : Cursor → Parsed α} {source : Text} {words : List Token}

/-- A rule finds the words of a source, and nothing else. -/
theorem Words.parse (isSource : Words source words) :
    ∃ finish, ∀ {α : Type} (rule : Cursor → Parsed α), (Scan.ofSource source).parse rule =
      { diagnostics := (rule { rest := words, finish }).diagnostics
        result := .ok (rule { rest := words, finish }).value } := by
  obtain ⟨⟨finish, isEnd, scanned⟩, inner⟩ := isSource
  refine ⟨finish, fun rule => ?_⟩
  simp [scanned, Scan.parse, Cursor.ofTokens?_append isEnd inner]

theorem exists_words {value : α}
    (parsed : (Scan.ofSource source).parse rule = { diagnostics := [], result := .ok value }) :
    ∃ words, Words source words := by
  obtain ⟨cursor, found, rfl, clean⟩ := Scan.parse_eq_ok parsed
  obtain ⟨scanClean, _⟩ := List.append_eq_nil_iff.mp clean.symm
  have complete : (Scan.ofSource source).overflow = none := by
    cases overflow : (Scan.ofSource source).overflow with
    | none => rfl
    | some numeral => simp [Scan.parse, overflow] at parsed
  obtain ⟨words, finish, shape, isEnd, inner⟩ :=
    Scan.terminated (fun _ _ => Segment.kind_ne_endOfFile) complete
  refine ⟨words, ⟨finish, isEnd, ?_⟩, inner⟩
  rw [← shape, ← scanClean, ← complete]
  rfl

/-- What a source reads as depends on its words only, if the end marker is not looked at. -/
theorem parse_eq_iff {value : α} {derives : List Token → Prop}
    (reads : ∀ cursor, rule cursor = { value, diagnostics := [] } ↔ derives cursor.rest) :
    (Scan.ofSource source).parse rule = { diagnostics := [], result := .ok value } ↔
      ∃ words, Words source words ∧ derives words := by
  constructor
  · intro parsed
    obtain ⟨words, isSource⟩ := exists_words parsed
    obtain ⟨finish, parses⟩ := isSource.parse
    rw [parses rule] at parsed
    injection parsed with clean given
    injection given with given
    exact ⟨words, isSource, (reads { rest := words, finish }).mp (by rw [← given, ← clean])⟩
  · rintro ⟨words, isSource, derived⟩
    obtain ⟨finish, parses⟩ := isSource.parse
    rw [parses rule, (reads { rest := words, finish }).mpr derived]

end Parsing

/-- A source reads as a program if its words keep to the grammar. -/
theorem program_eq_iff (source : Text) (program : List (Stmt Unit)) :
    Source.program source = { diagnostics := [], result := .ok program } ↔
      ∃ words, Words source words ∧ Grammar.Declarations words program :=
  parse_eq_iff fun cursor => Cursor.program_eq_iff cursor program

/-- A source reads as an expression if its words keep to the grammar. -/
theorem expression_eq_iff (source : Text) (expr : Expr Unit) :
    Source.expression source = { diagnostics := [], result := .ok (some expr) } ↔
      ∃ words, Words source words ∧ Grammar.Expression words expr :=
  parse_eq_iff fun cursor => Cursor.expression_eq_iff cursor expr

theorem Words.unique {source : Text} {words others : List Token} (here : Words source words)
    (there : Words source others) : others = words := by
  obtain ⟨finish, _, scanned⟩ := here.scanned
  obtain ⟨last, _, rescanned⟩ := there.scanned
  have same := congrArg Scan.tokens (rescanned.symm.trans scanned)
  exact (List.append_inj' same rfl).1

/-- The words of two sources joined by a newline. -/
theorem Words.join {first second : Text} {words others : List Token} (here : Words first words)
    (there : Words second others) :
    Words (first ++ Text.newline :: second)
      (words ++ others.map (Token.down (first.newlines + 1))) := by
  obtain ⟨⟨finish, isEnd, scanned⟩, inner⟩ := here
  obtain ⟨⟨last, isLast, scannedLast⟩, innerLast⟩ := there
  have complete : (Scan.ofSegments 1 (Segment.ofText first)).overflow = none :=
    congrArg Scan.overflow scanned
  have clean : (Scan.ofSegments 1 (Segment.ofText first)).diagnostics = [] :=
    congrArg Scan.diagnostics scanned
  have joined := Scan.ofSegments_join 1 complete
    (Scan.closed_of_diagnostics_eq_nil complete clean) second
  rw [Nat.add_assoc, Scan.ofSegments_add] at joined
  refine ⟨⟨last.down (first.newlines + 1), isLast, ?_⟩, ?_⟩
  · have rescanned : Scan.ofSource (first ++ Text.newline :: second) =
        (Scan.ofSource first).append ((Scan.ofSource second).down (first.newlines + 1)) := joined
    rw [rescanned, scanned, scannedLast]
    simp [Scan.append, Scan.down]
  · intro word member
    rcases List.mem_append.mp member with old | new
    · exact inner word old
    · obtain ⟨other, otherMember, rfl⟩ := List.mem_map.mp new
      exact innerLast other otherMember

end Loxley.Source
