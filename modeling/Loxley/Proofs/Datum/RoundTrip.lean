import Loxley.Proofs.Datum.Nesting

/-!
# Printing and reading back

Data are read back from their texts with spaces between them, as long as their atoms can be told
apart, and whatever is read from a text is such data.
-/

set_option autoImplicit false

namespace Loxley.Datum

/-! ## Escaping -/

/-- A text with every occurrence of a byte replaced. -/
def replaceAll (byte : UInt8) (replacement text : Text) : Text :=
  text.flatMap fun other => if other == byte then replacement else [other]

/-- The byte that escapes is replaced first, so that no later replacement sees what an earlier one
has put in. -/
theorem flatMap_escape (text : Text) :
    text.flatMap escape =
      replaceAll 10 [92, 110] (replaceAll 34 [92, 34] (replaceAll 92 [92, 92] text)) := by
  simp only [replaceAll, List.flatMap_assoc]
  congr 1
  funext byte
  by_cases backslash : byte = 92
  · rw [backslash]
    rfl
  · by_cases quote : byte = 34
    · rw [quote]
      rfl
    · simp [escape, backslash, quote]

/-! ## What is printed is read -/

theorem renderItems_eq_join (data : List Datum) :
    renderItems data = Text.join [32] (data.map render) := by
  induction data with
  | nil => rfl
  | cons first others ih =>
      cases others with
      | nil => rfl
      | cons second others =>
          rw [renderItems, ih]
          simp [Text.join]

theorem Legible.reads {datum : Datum} (legible : datum.Legible) (zeroFree : datum.ZeroFree) :
    datum.Reads := by
  rcases legible.reads_or_fails with ⟨reads, _⟩ | ⟨_, hasZero⟩
  · exact reads
  · exact absurd zeroFree hasZero

theorem readAll_join {data : List Datum}
    (each : ∀ datum ∈ data, datum.Legible ∧ datum.ZeroFree) :
    readAll (Text.join [32] (data.map render)) = .ok data := by
  have reads : ∀ datum ∈ data, datum.Reads :=
    fun datum member => (each datum member).1.reads (each datum member).2
  obtain ⟨later, same⟩ := reads_items reads [] [] 0 (by simp [Ends] : Ends [])
  have readAll_eq : readAll (renderItems data) = resume [[]] 0 (renderItems data ++ []) := by
    rw [List.append_nil]
    rfl
  rw [← renderItems_eq_join, readAll_eq, same, resume_nil]
  simp

/-! ## What is read can be printed -/

theorem Spells.zero_not_mem {body contents : Text} (spelled : Spells body contents)
    (noZero : 0 ∉ body) : 0 ∉ contents := by
  induction spelled with
  | nil => exact noZero
  | plain _ _ _ ih =>
      simp only [List.mem_cons, not_or] at noZero ⊢
      exact ⟨noZero.1, ih noZero.2⟩
  | quote _ ih | backslash _ ih | newline _ ih =>
      simp only [List.mem_cons, not_or] at noZero ⊢
      exact ⟨by decide, ih noZero.2.2⟩

theorem Written.legible {text : Text} {words : List Lexeme} (written : Written text words)
    (noZero : 0 ∉ text) (datum : Datum) (member : .atom datum ∈ words) :
    datum.Legible ∧ datum.ZeroFree := by
  induction written with
  | nil => cases member
  | blank _ _ ih => exact ih (fun zero => noZero (List.mem_cons_of_mem _ zero)) member
  | comment _ _ _ ih => exact ih (fun zero => noZero (by simp [zero])) member
  | word isWord _ _ ih =>
      rw [List.mem_append, not_or] at noZero
      rcases List.mem_cons.mp member with rfl | later
      · cases isWord with
        | symbol spelled => exact ⟨.symbol spelled, .symbol⟩
        | number spelled => exact ⟨.number spelled, .number⟩
        | string spelled =>
            exact ⟨.string, .string (spelled.zero_not_mem fun zero => noZero.1 (by simp [zero]))⟩
        | ellipsis => exact ⟨.ellipsis, .ellipsis⟩
      · exact ih noZero.2 later

mutual

theorem legible_of_flatten (datum : Datum)
    (atoms : ∀ atom, .atom atom ∈ datum.flatten → atom.Legible ∧ atom.ZeroFree) :
    datum.Legible ∧ datum.ZeroFree := by
  cases datum with
  | symbol text | string text | number text | ellipsis => exact atoms _ (by simp [flatten])
  | list items =>
      have each := legible_of_flattenAll items fun atom member =>
        atoms atom (by simp [flatten, member])
      exact ⟨.list fun item member => (each item member).1,
        .list fun item member => (each item member).2⟩

theorem legible_of_flattenAll (data : List Datum)
    (atoms : ∀ atom, .atom atom ∈ flattenAll data → atom.Legible ∧ atom.ZeroFree) :
    ∀ datum ∈ data, datum.Legible ∧ datum.ZeroFree := by
  cases data with
  | nil => simp
  | cons first rest =>
      have firstToo := legible_of_flatten first fun atom member =>
        atoms atom (by simp [flattenAll, member])
      have others := legible_of_flattenAll rest fun atom member =>
        atoms atom (by simp [flattenAll, member])
      exact List.forall_mem_cons.mpr ⟨firstToo, others⟩

end

theorem legible_of_readAll {text : Text} {data : List Datum} (found : readAll text = .ok data) :
    ∀ datum ∈ data, datum.Legible ∧ datum.ZeroFree :=
  legible_of_flattenAll data
    ((readAll_eq_ok_iff.mp found).legible (zero_not_mem_beforeZero text))

/--
The texts of data with spaces between them read as the data exactly if symbols and numbers are
spelled as such and no string has a zero byte. Whatever is read has that property, so each datum that
is read is read back from its text. Strings are printed by replacing backslashes, then quotes, then
newlines.
-/
theorem printing_reads_back :
    (∀ data, readAll (Text.join [32] (data.map render)) = .ok data ↔
      ∀ datum ∈ data, datum.Legible ∧ datum.ZeroFree) ∧
    (∀ text data, readAll text = .ok data →
      ∀ datum ∈ data, datum.Legible ∧ datum.ZeroFree ∧ read datum.render = .ok datum) ∧
    ∀ text, (string text).render =
      34 :: replaceAll 10 [92, 110] (replaceAll 34 [92, 34] (replaceAll 92 [92, 92] text)) ++
        [34] := by
  refine ⟨fun data => ⟨legible_of_readAll, readAll_join⟩, fun text data found datum member => ?_,
    fun text => by rw [← flatMap_escape]; rfl⟩
  obtain ⟨legible, zeroFree⟩ := legible_of_readAll found datum member
  exact ⟨legible, zeroFree, legible.read_render_iff.mpr ⟨zeroFree, rfl⟩⟩

/-- A list of one atom of each kind and of an empty list. The string is a quote, a backslash, an n and
a newline. -/
def everyAtom : Datum :=
  list [symbol "-x", number "-2.50", string "\"\\n\n", ellipsis, list []]

theorem everyAtom_reads_back :
    readAll ((" (-x -2.50 \"\\\"\\\\n\\n\" ... ()) ;" : Text)) = .ok [everyAtom] ∧
    everyAtom.render = ("(-x -2.50 \"\\\"\\\\n\\n\" ... ())" : Text) ∧
    everyAtom.Legible ∧ everyAtom.ZeroFree ∧ read everyAtom.render = .ok everyAtom ∧
    readAll (everyAtom.render ++ 32 :: everyAtom.render) = .ok [everyAtom, everyAtom] := by
  have found : readAll ((" (-x -2.50 \"\\\"\\\\n\\n\" ... ()) ;" : Text)) = .ok [everyAtom] := by
    cbv
  obtain ⟨printed, parsed, _⟩ := printing_reads_back
  obtain ⟨legible, zeroFree, readsBack⟩ := parsed _ _ found everyAtom List.mem_cons_self
  have twice := (printed [everyAtom, everyAtom]).mpr (by simp [legible, zeroFree])
  exact ⟨found, by cbv, legible, zeroFree, readsBack, by simpa [Text.join] using twice⟩

end Loxley.Datum
