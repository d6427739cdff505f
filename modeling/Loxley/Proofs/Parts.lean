import Loxley.Scope

/-!
# Parts of a program

Every statement, parameter and expression of a program has an address, which is the way down to it.
Scoping is described on addresses: which scopes lie around an address, and which names are declared
there before it. Nothing here depends on the order in which an analysis visits the program.
-/

set_option autoImplicit false

namespace Loxley

/-- A program or something in it. -/
inductive Part (Reference : Type) where
  | program (body : List (Stmt Reference))
  | stmt (value : Stmt Reference)
  | parameter (name : Token)
  | expr (value : Expr Reference)

/--
The way down to a part, as the index of a child at every step. The lexicographic order of addresses
is the order of the text, where a part comes before everything in it.
-/
abbrev Address := List Nat

namespace Part

variable {Reference : Type}

/-- The parts right below a part, in order. -/
def children : Part Reference → List (Part Reference)
  | program body => body.map stmt
  | stmt (.expression _ value) | stmt (.print _ value) => [expr value]
  | stmt (.declare _ value) | stmt (.giveBack _ value) => value.toList.map expr
  | stmt (.block _ body) => body.map stmt
  | stmt (.ifThen _ test consequent) => [expr test, stmt consequent]
  | stmt (.ifElse _ test consequent alternative) => [expr test, stmt consequent, stmt alternative]
  | stmt (.loop _ test body) => [expr test, stmt body]
  | stmt (.function _ parameters body) => parameters.map parameter ++ body.map stmt
  | parameter _ | expr (.literal _ _) | expr (.ident _ _) => []
  | expr (.group _ inner) => [expr inner]
  | expr (.unary _ _ operand) => [expr operand]
  | expr (.binary _ _ left right) | expr (.logical _ _ left right) => [expr left, expr right]
  | expr (.assign _ _ value) => [expr value]
  | expr (.call _ callee arguments) => expr callee :: arguments.map expr

/-- The part at an address. -/
def at? : Part Reference → Address → Option (Part Reference)
  | part, [] => some part
  | part, index :: inner => part.children[index]?.bind fun child => child.at? inner

/-- Whether a part opens a scope around a child of it. The test of a loop lies outside. -/
def opensAt : Part Reference → Nat → Bool
  | stmt (.block _ _), _ | stmt (.function _ _ _), _ => true
  | stmt (.loop _ _ _), index => index == 1
  | _, _ => false

/-- The scopes around an address, innermost first, each by the address of what opens it. -/
def scopesAround : Part Reference → Address → List Address
  | _, [] => []
  | part, index :: inner =>
    (part.children[index]?.toList.flatMap fun child =>
      (child.scopesAround inner).map (index :: ·)) ++
      if part.opensAt index then [[]] else []

/-- The name that a part declares in the scope around it. -/
def declared? : Part Reference → Option Token
  | stmt (.declare name _) | stmt (.function name _ _) | parameter name => some name
  | _ => none

/-- The use of a name that a part is. -/
def use? : Part Reference → Option (NameUse Reference)
  | expr (.ident name reference) => some { usage := .read, name, reference }
  | expr (.assign name reference _) => some { usage := .assign, name, reference }
  | _ => none

/-- A part declares a name in the scope around it. -/
def Names (part : Part Reference) (name : Text) : Prop :=
  ∃ token, part.declared? = some token ∧ token.lexeme = name

/--
The part at an address declares a name in the given scope. A declaration without a scope inside the
whole belongs to what is around the whole.
-/
def DeclaresAt (whole : Part Reference) (site : Address) (scope : Option Address) (name : Text) :
    Prop :=
  (∃ part, whole.at? site = some part ∧ part.Names name) ∧
    (whole.scopesAround site).head? = scope

/-- A name is declared in a scope before an address. -/
def DeclaresBefore (whole : Part Reference) (address : Address) (scope : Option Address)
    (name : Text) : Prop :=
  ∃ site, site < address ∧ whole.DeclaresAt site scope name

/-- A part declares a name in the scope around it, itself or by something in it. -/
def Exposes (part : Part Reference) (name : Text) : Prop :=
  ∃ site, part.DeclaresAt site none name

/-- An address lies in a part with a property, and is not the part's own. -/
def IsInside (whole : Part Reference) (holds : Part Reference → Prop) (address : Address) : Prop :=
  ∃ outer index inner part, address = outer ++ index :: inner ∧ whole.at? outer = some part ∧
    holds part

/-! ## Induction -/

theorem sizeOf_lt_of_mem_children {child part : Part Reference} (isChild : child ∈ part.children) :
    sizeOf child < sizeOf part := by
  cases part with
  | parameter => simp [children] at isChild
  | program body =>
      obtain ⟨value, member, rfl⟩ := List.mem_map.mp isChild
      have := List.sizeOf_lt_of_mem member
      simp
      omega
  | stmt value =>
      cases value with
      | expression | print | ifThen | ifElse | loop =>
          simp only [children, List.mem_cons, List.not_mem_nil, or_false] at isChild
          rcases isChild with rfl | rfl | rfl <;> simp <;> omega
      | declare _ value | giveBack _ value =>
          cases value with
          | none => simp [children] at isChild
          | some value =>
              obtain rfl : child = expr value := by simpa [children] using isChild
              simp
              omega
      | block _ body =>
          obtain ⟨value, member, rfl⟩ := List.mem_map.mp isChild
          have := List.sizeOf_lt_of_mem member
          simp
          omega
      | function _ parameters body =>
          rcases List.mem_append.mp isChild with mapped | mapped
          all_goals
            obtain ⟨value, member, rfl⟩ := List.mem_map.mp mapped
            have := List.sizeOf_lt_of_mem member
            simp
            omega
  | expr value =>
      cases value with
      | literal | ident => simp [children] at isChild
      | group | unary | binary | logical | assign =>
          simp only [children, List.mem_cons, List.not_mem_nil, or_false] at isChild
          rcases isChild with rfl | rfl <;> simp <;> omega
      | call _ callee arguments =>
          rcases List.mem_cons.mp isChild with rfl | mapped
          · simp
            omega
          · obtain ⟨value, member, rfl⟩ := List.mem_map.mp mapped
            have := List.sizeOf_lt_of_mem member
            simp
            omega

/-- What holds of a part whenever it holds of its children holds of every part. -/
theorem induction {motive : Part Reference → Prop}
    (step : ∀ part, (∀ child ∈ part.children, motive child) → motive part) (part : Part Reference) :
    motive part :=
  step part fun child isChild =>
    have := sizeOf_lt_of_mem_children isChild
    induction step child
termination_by sizeOf part

/-! ## Down one step -/

section Child

variable {part child found : Part Reference} {index : Nat} {inner : Address}

theorem at?_cons (isChild : part.children[index]? = some child) :
    part.at? (index :: inner) = child.at? inner := by
  rw [at?, isChild, Option.bind_some]

theorem at?_cons_eq_some_iff :
    part.at? (index :: inner) = some found ↔
      ∃ child, part.children[index]? = some child ∧ child.at? inner = some found := by
  rw [at?, Option.bind_eq_some_iff]

theorem scopesAround_cons (isChild : part.children[index]? = some child) :
    part.scopesAround (index :: inner) =
      (child.scopesAround inner).map (index :: ·) ++ if part.opensAt index then [[]] else [] := by
  simp [scopesAround, isChild]

theorem scopesAround_append {outer : Address} (reached : part.at? outer = some found)
    (inner : Address) :
    part.scopesAround (outer ++ inner) =
      (found.scopesAround inner).map (outer ++ ·) ++ part.scopesAround outer := by
  induction outer generalizing part with
  | nil =>
      cases reached
      simp [scopesAround]
  | cons index outer ih =>
      obtain ⟨child, isChild, below⟩ := at?_cons_eq_some_iff.mp reached
      rw [List.cons_append, scopesAround_cons isChild, scopesAround_cons isChild, ih below]
      simp [Function.comp_def]

/-- The scope of a declaration as seen from the part around the one that it stands in. -/
def outward (part : Part Reference) (index : Nat) : Option Address → Option Address
  | some scope => some (index :: scope)
  | none => if part.opensAt index then some [] else none

theorem head?_scopesAround_cons (isChild : part.children[index]? = some child) :
    (part.scopesAround (index :: inner)).head? =
      part.outward index (child.scopesAround inner).head? := by
  rw [scopesAround_cons isChild]
  cases child.scopesAround inner with
  | nil =>
      by_cases opened : part.opensAt index = true
      · simp [outward, opened]
      · simp [outward, opened]
  | cons scope others => rfl

variable {scope : Option Address} {name : Text}

theorem declaresAt_nil_iff : part.DeclaresAt [] scope name ↔ part.Names name ∧ scope = none := by
  simp [DeclaresAt, at?, scopesAround, eq_comm]

theorem declaresAt_cons_iff :
    part.DeclaresAt (index :: inner) scope name ↔
      ∃ child, part.children[index]? = some child ∧
        ∃ deeper, child.DeclaresAt inner deeper name ∧ scope = part.outward index deeper := by
  constructor
  · rintro ⟨⟨found, reached, named⟩, rfl⟩
    obtain ⟨child, isChild, reached⟩ := at?_cons_eq_some_iff.mp reached
    exact ⟨child, isChild, _, ⟨⟨found, reached, named⟩, rfl⟩, head?_scopesAround_cons isChild⟩
  · rintro ⟨child, isChild, _, ⟨⟨found, reached, named⟩, rfl⟩, rfl⟩
    exact ⟨⟨found, (at?_cons isChild).trans reached, named⟩, head?_scopesAround_cons isChild⟩

/-- What stands before an address is around it, before the child with it, or in that child. -/
theorem declaresBefore_cons_iff (isChild : part.children[index]? = some child) :
    part.DeclaresBefore (index :: inner) scope name ↔
      part.Names name ∧ scope = none ∨
      (∃ earlier sibling deeper, earlier < index ∧ part.children[earlier]? = some sibling ∧
        (∃ site, sibling.DeclaresAt site deeper name) ∧ scope = part.outward earlier deeper) ∨
      ∃ deeper, child.DeclaresBefore inner deeper name ∧ scope = part.outward index deeper := by
  constructor
  · rintro ⟨site, before, declared⟩
    cases site with
    | nil => exact .inl (declaresAt_nil_iff.mp declared)
    | cons step site =>
        obtain ⟨sibling, isSibling, deeper, declared, same⟩ := declaresAt_cons_iff.mp declared
        rcases List.cons_lt_cons_iff.mp before with earlier | ⟨rfl, within⟩
        · exact .inr (.inl ⟨step, sibling, deeper, earlier, isSibling, ⟨site, declared⟩, same⟩)
        · obtain rfl : sibling = child := Option.some.inj (isSibling.symm.trans isChild)
          exact .inr (.inr ⟨deeper, ⟨site, within, declared⟩, same⟩)
  · rintro (declared | ⟨earlier, sibling, deeper, less, isSibling, ⟨site, declared⟩, same⟩ |
      ⟨deeper, ⟨site, before, declared⟩, same⟩)
    · exact ⟨[], List.nil_lt_cons .., declaresAt_nil_iff.mpr declared⟩
    · exact ⟨earlier :: site, List.cons_lt_cons_iff.mpr (.inl less),
        declaresAt_cons_iff.mpr ⟨sibling, isSibling, deeper, declared, same⟩⟩
    · exact ⟨index :: site, List.cons_lt_cons_iff.mpr (.inr ⟨rfl, before⟩),
        declaresAt_cons_iff.mpr ⟨child, isChild, deeper, declared, same⟩⟩

theorem not_isInside_nil (part : Part Reference) (holds : Part Reference → Prop) :
    ¬ part.IsInside holds [] := by
  rintro ⟨outer, index, inner, found, same, _⟩
  cases outer <;> cases same

theorem isInside_cons_iff {holds : Part Reference → Prop}
    (isChild : part.children[index]? = some child) :
    part.IsInside holds (index :: inner) ↔ holds part ∨ child.IsInside holds inner := by
  constructor
  · rintro ⟨outer, step, rest, found, same, reached, held⟩
    cases outer with
    | nil =>
        cases reached
        exact .inl held
    | cons first outer =>
        obtain ⟨rfl, rfl⟩ := List.cons.inj same
        rw [at?_cons isChild] at reached
        exact .inr ⟨outer, step, rest, found, rfl, reached, held⟩
  · rintro (held | ⟨outer, step, rest, found, rfl, reached, held⟩)
    · exact ⟨[], index, inner, part, rfl, rfl, held⟩
    · exact ⟨index :: outer, step, rest, found, rfl, (at?_cons isChild).trans reached, held⟩

theorem exposes_iff :
    part.Exposes name ↔ part.Names name ∨ ∃ index child, part.children[index]? = some child ∧
      part.opensAt index = false ∧ child.Exposes name := by
  constructor
  · rintro ⟨site, declared⟩
    cases site with
    | nil => exact .inl (declaresAt_nil_iff.mp declared).1
    | cons index inner =>
        obtain ⟨child, isChild, deeper, declared, same⟩ := declaresAt_cons_iff.mp declared
        cases deeper with
        | some => cases same
        | none =>
            have closed : part.opensAt index = false := by simpa [outward] using same
            exact .inr ⟨index, child, isChild, closed, inner, declared⟩
  · rintro (named | ⟨index, child, isChild, closed, inner, declared⟩)
    · exact ⟨[], declaresAt_nil_iff.mpr ⟨named, rfl⟩⟩
    · exact ⟨index :: inner, declaresAt_cons_iff.mpr
        ⟨child, isChild, none, declared, by simp [outward, closed]⟩⟩

end Child

/-! ## Expressions -/

section Expressions

variable {value : Expr Reference} {found : Part Reference} {address : Address}

theorem exists_expr_of_mem_map {values : List (Expr Reference)} (member : found ∈ values.map expr) :
    ∃ inner, found = expr inner := by
  obtain ⟨inner, _, rfl⟩ := List.mem_map.mp member
  exact ⟨inner, rfl⟩

theorem child_of_expr (isChild : found ∈ (expr value).children) : ∃ inner, found = expr inner := by
  cases value with
  | literal | ident => simp [children] at isChild
  | group | unary | binary | logical | assign =>
      simp only [children, List.mem_cons, List.not_mem_nil, or_false] at isChild
      rcases isChild with rfl | rfl <;> exact ⟨_, rfl⟩
  | call _ callee arguments =>
      rcases List.mem_cons.mp isChild with rfl | mapped
      · exact ⟨_, rfl⟩
      · exact exists_expr_of_mem_map mapped

/-- There are only expressions in an expression. -/
theorem at?_expr (reached : (expr value).at? address = some found) :
    ∃ inner, found = expr inner := by
  induction address generalizing value with
  | nil =>
      cases reached
      exact ⟨value, rfl⟩
  | cons index inner ih =>
      obtain ⟨child, isChild, reached⟩ := at?_cons_eq_some_iff.mp reached
      obtain ⟨next, rfl⟩ := child_of_expr (List.mem_of_getElem? isChild)
      exact ih reached

theorem scopesAround_expr (value : Expr Reference) : (expr value).scopesAround address = [] := by
  induction address generalizing value with
  | nil => rfl
  | cons index inner ih =>
      cases isChild : (expr value).children[index]? with
      | none => simp [scopesAround, isChild, opensAt]
      | some child =>
          obtain ⟨next, rfl⟩ := child_of_expr (List.mem_of_getElem? isChild)
          simp [scopesAround_cons isChild, ih, opensAt]

theorem not_names_expr (name : Text) : ¬ (expr value).Names name := by
  rintro ⟨token, declared, _⟩
  cases declared

theorem not_exposes_expr (name : Text) : ¬ (expr value).Exposes name := by
  rintro ⟨site, ⟨⟨found, reached, named⟩, _⟩⟩
  obtain ⟨inner, rfl⟩ := at?_expr reached
  exact not_names_expr name named

end Expressions

end Part

end Loxley
