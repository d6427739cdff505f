import Loxley.Proofs.Production.Agreement

/-!
# Rendering expressions

An expression tree keeps most of its tokens; of the others it is known where they stand and which
marks they are. A tree is layered if every operand binds at least as tightly as its place requires,
so that looser operands stand in parentheses only. The parser reads exactly the renderings of
layered trees, so a layered tree can be rendered and read again, and no tokens have two readings.
-/

set_option autoImplicit false

namespace Loxley

namespace Tier

instance : LE Tier := ⟨fun tier other => tier.rank ≤ other.rank⟩

instance : LT Tier := ⟨fun tier other => tier.rank < other.rank⟩

theorem le_iff {tier other : Tier} : tier ≤ other ↔ tier.rank ≤ other.rank := Iff.rfl

theorem lt_iff {tier other : Tier} : tier < other ↔ tier.rank < other.rank := Iff.rfl

/-- What is tighter than a tier is at least as tight as the next one. -/
theorem lt_iff_next_le {tier next other : Tier} (below : tier.next? = some next) :
    tier < other ↔ next ≤ other := by
  rw [lt_iff, le_iff, next?_eq_some_iff.mp below]
  exact Iff.rfl

theorem exists_next_of_lt {tier other : Tier} (lt : tier < other) :
    ∃ next, tier.next? = some next ∧ next ≤ other := by
  have bounded : other.rank ≤ Tier.primary.rank := by cases other <;> decide
  obtain ⟨next, below⟩ := tier.exists_next (Nat.lt_of_lt_of_le lt bounded)
  exact ⟨next, below, (lt_iff_next_le below).mp lt⟩

end Tier

/-! ## Layered trees -/

/-- How tightly an expression binds. -/
def Expr.tier : Expr Unit → Tier
  | .literal _ _ | .group _ _ | .ident _ _ => .primary
  | .call _ _ _ => .call
  | .unary _ _ _ => .unary
  | .binary op _ _ _ => op.tier
  | .logical op _ _ _ => op.tier
  | .assign _ _ _ => .assignment

mutual

/--
Every token is of the kind that its place requires, and every operand binds tightly enough: the left
one at least as tightly as the operator, the right one more tightly.
-/
def Expr.Layered : Expr Unit → Prop
  | .literal token value => Production.Constant token value
  | .group paren inner => paren.kind = .symbol .leftParen ∧ inner.Layered
  | .unary op token operand => token.kind = op.kind ∧ .unary ≤ operand.tier ∧ operand.Layered
  | .binary op token left right =>
    token.kind = op.kind ∧ (op.tier ≤ left.tier ∧ left.Layered) ∧
      op.tier < right.tier ∧ right.Layered
  | .logical op token left right =>
    token.kind = op.kind ∧ (op.tier ≤ left.tier ∧ left.Layered) ∧
      op.tier < right.tier ∧ right.Layered
  | .ident name _ => name.kind = .identifier
  | .assign name _ value => name.kind = .identifier ∧ value.Layered
  | .call paren callee arguments =>
    paren.kind = .symbol .rightParen ∧ (.call ≤ callee.tier ∧ callee.Layered) ∧
      arguments.length ≤ 255 ∧ Expr.LayeredAll arguments

def Expr.LayeredAll : List (Expr Unit) → Prop
  | [] => True
  | first :: rest => first.Layered ∧ Expr.LayeredAll rest

end

/-! ## Slots -/

/-- A place in the text of a tree. -/
inductive Slot where
  /-- A token that the tree keeps. -/
  | kept (token : Token)
  /-- Any token that is a certain symbol. -/
  | mark (symbol : Symbol)

/-- A token may stand in a slot. -/
def Slot.Admits : Slot → Token → Prop
  | kept token, given => given = token
  | mark symbol, given => given.kind = .symbol symbol

def Slot.spell : Slot → Token
  | kept token => token
  | mark symbol => { kind := .symbol symbol, lexeme := symbol.spelling, line := 1 }

theorem Slot.admits_spell (slot : Slot) : slot.Admits slot.spell := by
  cases slot <;> rfl

mutual

/-- The places of an expression in the order of its text. -/
def Expr.slots : Expr Unit → List Slot
  | .literal token _ => [.kept token]
  | .group paren inner => .kept paren :: (inner.slots ++ [.mark .rightParen])
  | .unary _ token operand => .kept token :: operand.slots
  | .binary _ token left right => left.slots ++ .kept token :: right.slots
  | .logical _ token left right => left.slots ++ .kept token :: right.slots
  | .ident name _ => [.kept name]
  | .assign name _ value => .kept name :: .mark .equal :: value.slots
  | .call paren callee arguments =>
    callee.slots ++ .mark .leftParen :: (Expr.slotsAll arguments ++ [.kept paren])

/-- The places of expressions with commas between them. -/
def Expr.slotsAll : List (Expr Unit) → List Slot
  | [] => []
  | [last] => last.slots
  | first :: second :: rest => first.slots ++ .mark .comma :: Expr.slotsAll (second :: rest)

end

/-- Tokens that stand in the places of an expression. -/
def Expr.Renders (expr : Expr Unit) (tokens : List Token) : Prop :=
  List.Forall₂ Slot.Admits expr.slots tokens

def Expr.spell (expr : Expr Unit) : List Token :=
  expr.slots.map Slot.spell

theorem Expr.renders_spell (expr : Expr Unit) : expr.Renders expr.spell := by
  rw [Expr.Renders, Expr.spell, List.forall₂_map_right_iff]
  exact List.forall₂_same.mpr fun slot _ => slot.admits_spell

/-! ## Layered trees and productions -/

theorem forall₂_append_left_iff {α β : Type} {relation : α → β → Prop} {first second : List α}
    {whole : List β} :
    List.Forall₂ relation (first ++ second) whole ↔
      ∃ left right, whole = left ++ right ∧ List.Forall₂ relation first left ∧
        List.Forall₂ relation second right := by
  constructor
  · intro related
    induction first generalizing whole with
    | nil => exact ⟨[], whole, rfl, .nil, related⟩
    | cons head tail ih =>
        cases related with
        | cons here there =>
            obtain ⟨left, right, rfl, tailRelated, secondRelated⟩ := ih there
            exact ⟨_ :: left, right, rfl, .cons here tailRelated, secondRelated⟩
  · rintro ⟨left, right, rfl, firstRelated, secondRelated⟩
    exact List.rel_append firstRelated secondRelated

theorem Slot.forall₂_kept_iff {token : Token} {slots : List Slot} {tokens : List Token} :
    List.Forall₂ Slot.Admits (.kept token :: slots) tokens ↔
      ∃ rest, tokens = token :: rest ∧ List.Forall₂ Slot.Admits slots rest := by
  constructor
  · rintro (_ | ⟨rfl, others⟩)
    exact ⟨_, rfl, others⟩
  · rintro ⟨rest, rfl, others⟩
    exact .cons rfl others

theorem Slot.forall₂_mark_iff {symbol : Symbol} {slots : List Slot} {tokens : List Token} :
    List.Forall₂ Slot.Admits (.mark symbol :: slots) tokens ↔
      ∃ token rest, tokens = token :: rest ∧ token.kind = .symbol symbol ∧
        List.Forall₂ Slot.Admits slots rest := by
  constructor
  · rintro (_ | ⟨isMark, others⟩)
    exact ⟨_, _, rfl, isMark, others⟩
  · rintro ⟨token, rest, rfl, isMark, others⟩
    exact .cons isMark others

namespace Production

theorem Expression.loosen {tier tighter : Tier} {tokens : List Token} {value : Expr Unit}
    (derived : Expression tighter tokens value) (le : tier ≤ tighter) :
    Expression tier tokens value := by
  rw [Tier.le_iff] at le
  obtain ⟨steps, rank⟩ := Nat.exists_eq_add_of_le le
  induction steps generalizing tier with
  | zero => rwa [Tier.rank_injective rank.symm]
  | succ steps ih =>
      have primary : tighter.rank ≤ Tier.primary.rank := by cases tighter <;> decide
      obtain ⟨next, below⟩ := tier.exists_next (by omega)
      have deeper := Tier.next?_eq_some_iff.mp below
      exact .tighter below (ih (by omega) (by omega))

/-- What the productions derive is layered, and is rendered by the tokens. -/
theorem Expression.layered {tier : Tier} {tokens : List Token} {value : Expr Unit}
    (derived : Expression tier tokens value) :
    tier ≤ value.tier ∧ value.Layered ∧ value.Renders tokens := by
  refine @Expression.rec
    (fun tier tokens value _ => tier ≤ value.tier ∧ value.Layered ∧ value.Renders tokens)
    (fun tokens arguments _ => Expr.LayeredAll arguments ∧
      List.Forall₂ Slot.Admits (Expr.slotsAll arguments) tokens)
    ?tighter ?assign ?logical ?binary ?unary ?call ?constant ?name ?group ?none ?last ?more
    tier tokens value derived
  case tighter =>
    rintro tier next tokens value below _ ⟨le, layered, renders⟩
    have deeper := Tier.next?_eq_some_iff.mp below
    rw [Tier.le_iff] at le
    exact ⟨Tier.le_iff.mpr (by omega), layered, renders⟩
  case assign =>
    rintro name equals tokens value isName isEquals _ ⟨_, layered, renders⟩
    exact ⟨Nat.le_refl _, ⟨isName, layered⟩, .cons rfl (.cons isEquals renders)⟩
  case logical =>
    rintro op next token first second left right _ spelled below _
      ⟨leLeft, layeredLeft, rendersLeft⟩ ⟨leRight, layeredRight, rendersRight⟩
    have ltRight := (Tier.lt_iff_next_le below).mpr leRight
    exact ⟨Nat.le_refl _, ⟨spelled, ⟨leLeft, layeredLeft⟩, ltRight, layeredRight⟩,
      List.rel_append rendersLeft (.cons rfl rendersRight)⟩
  case binary =>
    rintro op next token first second left right _ spelled below _
      ⟨leLeft, layeredLeft, rendersLeft⟩ ⟨leRight, layeredRight, rendersRight⟩
    have ltRight := (Tier.lt_iff_next_le below).mpr leRight
    exact ⟨Nat.le_refl _, ⟨spelled, ⟨leLeft, layeredLeft⟩, ltRight, layeredRight⟩,
      List.rel_append rendersLeft (.cons rfl rendersRight)⟩
  case unary =>
    rintro op token tokens operand spelled _ ⟨le, layered, renders⟩
    exact ⟨Nat.le_refl _, ⟨spelled, le, layered⟩, .cons rfl renders⟩
  case call =>
    rintro opening closing first second callee arguments _ opens _ few closes
      ⟨le, layered, renders⟩ ⟨layeredAll, rendersAll⟩
    exact ⟨Nat.le_refl _, ⟨closes, ⟨le, layered⟩, few, layeredAll⟩,
      List.rel_append renders (.cons opens (List.rel_append rendersAll (.cons rfl .nil)))⟩
  case constant => exact fun stands => ⟨Nat.le_refl _, stands, .cons rfl .nil⟩
  case name => exact fun isName => ⟨Nat.le_refl _, isName, .cons rfl .nil⟩
  case group =>
    rintro opening closing tokens inner opens _ closes ⟨_, layered, renders⟩
    exact ⟨Nat.le_refl _, ⟨opens, layered⟩,
      .cons rfl (List.rel_append renders (.cons closes .nil))⟩
  case none => exact ⟨trivial, .nil⟩
  case last => exact fun _ ⟨_, layered, renders⟩ => ⟨⟨layered, trivial⟩, renders⟩
  case more =>
    rintro tokens rest comma value second others _ separates _ ⟨_, layered, renders⟩
      ⟨layeredAll, rendersAll⟩
    exact ⟨⟨layered, layeredAll⟩, List.rel_append renders (.cons separates rendersAll)⟩

end Production

open Production (Expression Arguments)

mutual

/-- The productions derive a layered tree from every rendering of it. -/
theorem Expr.Layered.expression {expr : Expr Unit} (layered : expr.Layered) {tokens : List Token}
    (renders : expr.Renders tokens) : Expression expr.tier tokens expr := by
  cases expr with
  | literal token value =>
      obtain ⟨_, rfl, ⟨⟩⟩ := Slot.forall₂_kept_iff.mp renders
      exact .constant layered
  | group paren inner =>
      obtain ⟨opens, layered⟩ := layered
      obtain ⟨_, rfl, others⟩ := Slot.forall₂_kept_iff.mp renders
      obtain ⟨first, _, rfl, rendersInner, last⟩ := forall₂_append_left_iff.mp others
      obtain ⟨closing, _, rfl, closes, ⟨⟩⟩ := Slot.forall₂_mark_iff.mp last
      exact .group opens ((layered.expression rendersInner).loosen (Nat.zero_le _)) closes
  | unary op token operand =>
      obtain ⟨spelled, le, layered⟩ := layered
      obtain ⟨_, rfl, rendersOperand⟩ := Slot.forall₂_kept_iff.mp renders
      exact .unary spelled ((layered.expression rendersOperand).loosen le)
  | binary op token left right =>
      obtain ⟨spelled, ⟨le, layeredLeft⟩, lt, layeredRight⟩ := layered
      obtain ⟨first, _, rfl, rendersLeft, others⟩ := forall₂_append_left_iff.mp renders
      obtain ⟨second, rfl, rendersRight⟩ := Slot.forall₂_kept_iff.mp others
      obtain ⟨next, below, leRight⟩ := Tier.exists_next_of_lt lt
      exact .binary ((layeredLeft.expression rendersLeft).loosen le) spelled below
        ((layeredRight.expression rendersRight).loosen leRight)
  | logical op token left right =>
      obtain ⟨spelled, ⟨le, layeredLeft⟩, lt, layeredRight⟩ := layered
      obtain ⟨first, _, rfl, rendersLeft, others⟩ := forall₂_append_left_iff.mp renders
      obtain ⟨second, rfl, rendersRight⟩ := Slot.forall₂_kept_iff.mp others
      obtain ⟨next, below, leRight⟩ := Tier.exists_next_of_lt lt
      exact .logical ((layeredLeft.expression rendersLeft).loosen le) spelled below
        ((layeredRight.expression rendersRight).loosen leRight)
  | ident name reference =>
      obtain ⟨_, rfl, ⟨⟩⟩ := Slot.forall₂_kept_iff.mp renders
      exact .name layered
  | assign name reference value =>
      obtain ⟨isName, layered⟩ := layered
      obtain ⟨_, rfl, others⟩ := Slot.forall₂_kept_iff.mp renders
      obtain ⟨equals, _, rfl, isEquals, rendersValue⟩ := Slot.forall₂_mark_iff.mp others
      exact .assign isName isEquals ((layered.expression rendersValue).loosen (Nat.zero_le _))
  | call paren callee arguments =>
      obtain ⟨closes, ⟨le, layered⟩, few, layeredAll⟩ := layered
      obtain ⟨first, _, rfl, rendersCallee, others⟩ := forall₂_append_left_iff.mp renders
      obtain ⟨opening, _, rfl, opens, others⟩ := Slot.forall₂_mark_iff.mp others
      obtain ⟨second, _, rfl, rendersAll, last⟩ := forall₂_append_left_iff.mp others
      obtain ⟨_, rfl, ⟨⟩⟩ := Slot.forall₂_kept_iff.mp last
      exact .call ((layered.expression rendersCallee).loosen le) opens
        (Expr.LayeredAll.arguments layeredAll rendersAll) few closes

theorem Expr.LayeredAll.arguments {exprs : List (Expr Unit)} (layered : Expr.LayeredAll exprs)
    {tokens : List Token} (renders : List.Forall₂ Slot.Admits (Expr.slotsAll exprs) tokens) :
    Arguments tokens exprs := by
  match exprs with
  | [] =>
      obtain ⟨⟩ := renders
      exact .none
  | [last] => exact .last ((layered.1.expression renders).loosen (Nat.zero_le _))
  | first :: second :: rest =>
      obtain ⟨left, _, rfl, rendersFirst, others⟩ := forall₂_append_left_iff.mp renders
      obtain ⟨comma, _, rfl, separates, rendersRest⟩ := Slot.forall₂_mark_iff.mp others
      exact .next ((layered.1.expression rendersFirst).loosen (Nat.zero_le _)) separates
        (Expr.LayeredAll.arguments layered.2 rendersRest)

end

theorem Production.expression_iff_renders {tokens : List Token} {value : Expr Unit} :
    Expression .assignment tokens value ↔ value.Layered ∧ value.Renders tokens :=
  ⟨fun derived => derived.layered.2,
    fun ⟨layered, renders⟩ => (layered.expression renders).loosen (Nat.zero_le _)⟩

/-! ## Reading renderings -/

theorem Cursor.expression_eq_iff_renders (words : List Token) (finish : Token) (value : Expr Unit) :
    Cursor.expression { rest := words, finish } = { value := some value, diagnostics := [] } ↔
      value.Layered ∧ value.Renders words := by
  rw [Cursor.expression_eq_iff, ← Production.expression_iff, Production.expression_iff_renders]

theorem Expr.Layered.ne_endOfFile {value : Expr Unit} (layered : value.Layered) :
    ∀ word ∈ value.spell, word.kind ≠ .endOfFile := by
  intro word member isEnd
  have used := (layered.expression value.renders_spell).used word member
  rw [isEnd] at used
  cases used

/--
Reading tokens up to the end marker as an expression gives a tree without a diagnostic exactly if the
tree is layered and the tokens render it. So a layered tree that is rendered is read again, and no
tokens have two readings.
-/
theorem Cursor.expression_reads_renderings {words : List Token} {finish : Token}
    (inner : ∀ word ∈ words, word.kind ≠ .endOfFile) (isEnd : finish.kind = .endOfFile) :
    (∀ value, (Cursor.ofTokens? (words ++ [finish])).map Cursor.expression =
        some { value := some value, diagnostics := [] } ↔ value.Layered ∧ value.Renders words) ∧
      (∀ value : Expr Unit, value.Layered →
        (Cursor.ofTokens? (value.spell ++ [finish])).map Cursor.expression =
          some { value := some value, diagnostics := [] }) ∧
      ∀ value other : Expr Unit, value.Layered → value.Renders words → other.Layered →
        other.Renders words → other = value := by
  refine ⟨fun value => ?_, fun value layered => ?_, ?_⟩
  · rw [Cursor.ofTokens?_append isEnd inner, Option.map_some, Option.some_inj,
      Cursor.expression_eq_iff_renders]
  · rw [Cursor.ofTokens?_append isEnd layered.ne_endOfFile, Option.map_some, Option.some_inj,
      Cursor.expression_eq_iff_renders]
    exact ⟨layered, value.renders_spell⟩
  · intro value other layered renders otherLayered otherRenders
    have read := (Cursor.expression_eq_iff_renders words finish value).mpr ⟨layered, renders⟩
    have readOther :=
      (Cursor.expression_eq_iff_renders words finish other).mpr ⟨otherLayered, otherRenders⟩
    cases readOther.symm.trans read
    rfl

/-- `a = b or -f(c, d = e)(g) * (h - i - j)`. -/
def layeredWords : List Token :=
  [.word .identifier "a", .word (.symbol .equal) "=", .word .identifier "b",
    .word (.keyword .orWord) "or", .word (.symbol .minus) "-", .word .identifier "f",
    .word (.symbol .leftParen) "(", .word .identifier "c", .word (.symbol .comma) ",",
    .word .identifier "d", .word (.symbol .equal) "=", .word .identifier "e",
    .word (.symbol .rightParen) ")", .word (.symbol .leftParen) "(", .word .identifier "g",
    .word (.symbol .rightParen) ")", .word (.symbol .star) "*", .word (.symbol .leftParen) "(",
    .word .identifier "h", .word (.symbol .minus) "-", .word .identifier "i",
    .word (.symbol .minus) "-", .word .identifier "j", .word (.symbol .rightParen) ")"]

/-- The tree in which `*` takes the negated call as its left operand and the group as its right. -/
def layeredTree : Expr Unit :=
  .assign (.word .identifier "a") ()
    (.logical .or (.word (.keyword .orWord) "or") (.ident (.word .identifier "b") ())
      (.binary .multiply (.word (.symbol .star) "*")
        (.unary .negate (.word (.symbol .minus) "-")
          (.call (.word (.symbol .rightParen) ")")
            (.call (.word (.symbol .rightParen) ")") (.ident (.word .identifier "f") ())
              [.ident (.word .identifier "c") (),
                .assign (.word .identifier "d") () (.ident (.word .identifier "e") ())])
            [.ident (.word .identifier "g") ()]))
        (.group (.word (.symbol .leftParen) "(")
          (.binary .subtract (.word (.symbol .minus) "-")
            (.binary .subtract (.word (.symbol .minus) "-") (.ident (.word .identifier "h") ())
              (.ident (.word .identifier "i") ()))
            (.ident (.word .identifier "j") ())))))

theorem Cursor.layeredTree_reads_renderings :
    layeredTree.Layered ∧ layeredTree.Renders layeredWords ∧
      (Cursor.ofTokens? (layeredTree.spell ++ [.word .endOfFile ""])).map Cursor.expression =
        some { value := some layeredTree, diagnostics := [] } ∧
      ∀ other : Expr Unit, other.Layered → other.Renders layeredWords → other = layeredTree := by
  obtain ⟨reads, again, unique⟩ :=
    @Cursor.expression_reads_renderings layeredWords (.word .endOfFile "") (by decide) rfl
  obtain ⟨layered, renders⟩ := (reads layeredTree).mp rfl
  exact ⟨layered, renders, again layeredTree layered,
    fun other => unique layeredTree other layered renders⟩

end Loxley
