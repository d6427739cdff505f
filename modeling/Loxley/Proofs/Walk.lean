import Mathlib.Data.List.Forall2
import Loxley.Proofs.Parts
import Loxley.Proofs.Scope

/-!
# The walk of scope analysis

Scope analysis goes through a program in the order of its text and carries the scopes along. What it
carries when it comes to an address is what addresses say about it: one scope for every scope around
the address, and in each the names that are declared there before the address.
-/

set_option autoImplicit false

namespace Loxley

namespace Scopes

/-- The innermost scope, if there is any, has gained some names; the others are the same. -/
def Gains (gained : Text → Prop) : Scopes → Scopes → Prop
  | [], after => after = []
  | innermost :: outer, after =>
    ∃ grown : Scope, after = grown :: outer ∧
      ∀ name, grown.declares name = true ↔ innermost.declares name = true ∨ gained name

variable {gained more : Text → Prop} {scopes middle after : Scopes}

theorem gains_self (nothing : ∀ name, ¬ gained name) (scopes : Scopes) :
    Gains gained scopes scopes := by
  cases scopes with
  | nil => rfl
  | cons innermost outer => exact ⟨innermost, rfl, fun name => by simp [nothing name]⟩

theorem Gains.congr (same : ∀ name, gained name ↔ more name) (gains : Gains gained scopes after) :
    Gains more scopes after := by
  obtain rfl : gained = more := funext fun name => propext (same name)
  exact gains

theorem Gains.trans (first : Gains gained scopes middle) (second : Gains more middle after) :
    Gains (fun name => gained name ∨ more name) scopes after := by
  cases scopes with
  | nil =>
      cases first
      exact second
  | cons innermost outer =>
      obtain ⟨grown, rfl, exactly⟩ := first
      obtain ⟨grownAgain, rfl, exactlyAgain⟩ := second
      refine ⟨grownAgain, rfl, fun name => ?_⟩
      rw [exactlyAgain, exactly, or_assoc]

theorem gains_declare (scopes : Scopes) (name : Text) (ready : Bool) :
    Gains (name = ·) scopes (scopes.declare name ready) := by
  cases scopes with
  | nil => rfl
  | cons innermost outer =>
      refine ⟨_, rfl, fun sought => ?_⟩
      rw [innermost.declares_cons_iff, or_comm, @eq_comm _ sought]

end Scopes

namespace Part

/-- The scopes after a part. -/
def extend (scopes : Scopes) : Part Unit → Scopes
  | program body => body.foldl Stmt.extend scopes
  | stmt value => value.extend scopes
  | parameter name => scopes.declare name.lexeme true
  | expr _ => scopes

/-- The scopes after the name of a part, if it declares one. A variable is not ready yet. -/
def enter (scopes : Scopes) : Part Unit → Scopes
  | stmt (.declare name _) => scopes.declare name.lexeme false
  | stmt (.function name _ _) | parameter name => scopes.declare name.lexeme true
  | _ => scopes

/-- The scopes at a child of a part, after the children before it. -/
def scopesBefore (scopes : Scopes) (part : Part Unit) (index : Nat) : Scopes :=
  (part.children.take index).foldl extend
    (if part.opensAt index then [] :: part.enter scopes else part.enter scopes)

/-- The scopes with which the walk comes to an address. -/
def scopesAt : Scopes → Part Unit → Address → Scopes
  | scopes, _, [] => scopes
  | scopes, part, index :: inner =>
    match part.children[index]? with
    | none => []
    | some child => child.scopesAt (part.scopesBefore scopes index) inner

section Child

variable {part child found : Part Unit} {index : Nat} {inner : Address}

theorem scopesAt_cons (isChild : part.children[index]? = some child) (scopes : Scopes) :
    part.scopesAt scopes (index :: inner) =
      child.scopesAt (part.scopesBefore scopes index) inner := by
  rw [scopesAt, isChild]

/-- Only a loop has children inside and outside of its scope, and its test declares nothing. -/
theorem opensAt_of_exposes {earlier : Nat} {sibling : Part Unit} {name : Text}
    (before : earlier < index) (isSibling : part.children[earlier]? = some sibling)
    (isChild : part.children[index]? = some child) (exposed : sibling.Exposes name) :
    part.opensAt earlier = part.opensAt index := by
  cases part with
  | program | parameter | expr => rfl
  | stmt value =>
      cases value with
      | loop _ test body =>
          cases earlier with
          | zero =>
              cases isSibling
              exact absurd exposed (not_exposes_expr name)
          | succ earlier =>
              obtain ⟨further, rfl⟩ : ∃ further, index = further + 2 :=
                ⟨index - 2, by omega⟩
              simp [children] at isChild
      | expression | print | declare | block | ifThen | ifElse | function | giveBack => rfl

end Child

/-! ## What a part declares around it -/

section Exposed

variable {part : Part Unit} {name : Text}

theorem exposes_iff_of_closed (closed : ∀ index, part.opensAt index = false) :
    part.Exposes name ↔ part.Names name ∨ ∃ child ∈ part.children, child.Exposes name := by
  rw [exposes_iff]
  refine or_congr_right ⟨?_, ?_⟩
  · rintro ⟨index, child, isChild, _, exposed⟩
    exact ⟨child, List.mem_of_getElem? isChild, exposed⟩
  · rintro ⟨child, member, exposed⟩
    obtain ⟨index, isChild⟩ := List.getElem?_of_mem member
    exact ⟨index, child, isChild, closed index, exposed⟩

theorem foldl_extend_gains {parts : List (Part Unit)}
    (each : ∀ part ∈ parts, ∀ scopes, Scopes.Gains part.Exposes scopes (part.extend scopes))
    (scopes : Scopes) :
    Scopes.Gains (fun name => ∃ part ∈ parts, part.Exposes name) scopes
      (parts.foldl extend scopes) := by
  induction parts generalizing scopes with
  | nil => exact Scopes.gains_self (by simp) scopes
  | cons first rest ih =>
      have after := ih (fun part member => each part (List.mem_cons_of_mem first member))
        (first.extend scopes)
      exact ((each first List.mem_cons_self scopes).trans after).congr (by simp)

theorem gains_names {token : Token} (declared : part.declared? = some token) (scopes : Scopes)
    (ready : Bool) : Scopes.Gains part.Names scopes (scopes.declare token.lexeme ready) :=
  (scopes.gains_declare token.lexeme ready).congr (by simp [Names, declared])

theorem gains_no_names (undeclared : part.declared? = none) (scopes : Scopes) :
    Scopes.Gains part.Names scopes scopes :=
  Scopes.gains_self (by simp [Names, undeclared]) scopes

theorem enter_gains (part : Part Unit) (scopes : Scopes) :
    Scopes.Gains part.Names scopes (part.enter scopes) := by
  cases part with
  | program | expr => exact gains_no_names rfl scopes
  | parameter => exact gains_names rfl scopes true
  | stmt value =>
      cases value with
      | declare => exact gains_names rfl scopes false
      | function => exact gains_names rfl scopes true
      | expression | print | block | ifThen | ifElse | loop | giveBack =>
          exact gains_no_names rfl scopes

/-- If a part opens a scope around what may declare names, only its own name is seen outside. -/
theorem gains_exposes_of_opens {scopes after : Scopes}
    (opened : ∀ index child, part.children[index]? = some child → part.opensAt index = false →
      ∃ value, child = expr value)
    (gains : Scopes.Gains part.Names scopes after) : Scopes.Gains part.Exposes scopes after := by
  refine gains.congr fun name => ?_
  rw [exposes_iff]
  refine (or_iff_left ?_).symm
  rintro ⟨index, child, isChild, closed, exposed⟩
  obtain ⟨value, rfl⟩ := opened index child isChild closed
  exact not_exposes_expr name exposed

/-- The scopes after a part have gained the names that it declares around it. -/
theorem extend_gains (part : Part Unit) (scopes : Scopes) :
    Scopes.Gains part.Exposes scopes (part.extend scopes) := by
  induction part using induction generalizing scopes with
  | step part ih =>
      cases part with
      | program body =>
          have each := foldl_extend_gains ih scopes
          rw [children, List.foldl_map] at each
          refine each.congr fun name => ?_
          rw [exposes_iff_of_closed fun _ => rfl]
          simp [Names, declared?, children]
      | parameter =>
          refine gains_exposes_of_opens (fun _ _ isChild => ?_) (gains_names rfl scopes true)
          cases isChild
      | expr => exact Scopes.gains_self not_exposes_expr scopes
      | stmt value =>
          cases value with
          | declare =>
              refine gains_exposes_of_opens (fun _ _ isChild _ => ?_) (gains_names rfl scopes true)
              exact exists_expr_of_mem_map (List.mem_of_getElem? isChild)
          | giveBack =>
              refine gains_exposes_of_opens (fun _ _ isChild _ => ?_) (gains_no_names rfl scopes)
              exact exists_expr_of_mem_map (List.mem_of_getElem? isChild)
          | expression _ value | print _ value =>
              refine gains_exposes_of_opens (fun _ _ isChild _ => ?_) (gains_no_names rfl scopes)
              exact ⟨value, List.mem_singleton.mp (List.mem_of_getElem? isChild)⟩
          | block =>
              refine gains_exposes_of_opens (fun _ _ _ closed => ?_) (gains_no_names rfl scopes)
              cases closed
          | function =>
              refine gains_exposes_of_opens (fun _ _ _ closed => ?_) (gains_names rfl scopes true)
              cases closed
          | loop _ test body =>
              refine gains_exposes_of_opens (fun index _ isChild closed => ?_)
                (gains_no_names rfl scopes)
              rcases index with _ | _ | further
              · exact ⟨test, (Option.some.inj isChild).symm⟩
              · cases closed
              · cases isChild
          | ifThen _ test consequent =>
              refine (ih (stmt consequent) (by simp [children]) scopes).congr fun name => ?_
              rw [@exposes_iff_of_closed (stmt (.ifThen _ test consequent)) _ fun _ => rfl]
              simp [children, Names, declared?, not_exposes_expr]
          | ifElse _ test consequent alternative =>
              have first := ih (stmt consequent) (by simp [children]) scopes
              have second := ih (stmt alternative) (by simp [children]) (consequent.extend scopes)
              refine (first.trans second).congr fun name => ?_
              rw [@exposes_iff_of_closed (stmt (.ifElse _ test consequent alternative)) _
                fun _ => rfl]
              simp [children, Names, declared?, not_exposes_expr]

end Exposed

/-! ## What is declared before an address -/

section Before

variable {part child found : Part Unit} {index : Nat} {inner : Address} {name : Text}

theorem declaresBefore_deeper (isChild : part.children[index]? = some child) (scope : Address) :
    part.DeclaresBefore (index :: inner) (some (index :: scope)) name ↔
      child.DeclaresBefore inner (some scope) name := by
  rw [declaresBefore_cons_iff isChild]
  constructor
  · rintro (⟨_, same⟩ | ⟨earlier, sibling, deeper, less, _, _, same⟩ | ⟨deeper, declared, same⟩)
    · cases same
    · cases deeper with
      | some =>
          cases same
          exact absurd less (Nat.lt_irrefl _)
      | none => simp [outward] at same
    · cases deeper with
      | some =>
          cases same
          exact declared
      | none => simp [outward] at same
  · exact fun declared => .inr (.inr ⟨some scope, declared, rfl⟩)

/-- Either the scope that a part opens around a child or, if there is none, the scope around it. -/
theorem declaresBefore_outward (isChild : part.children[index]? = some child) :
    part.DeclaresBefore (index :: inner) (part.outward index none) name ↔
      (part.opensAt index = false ∧ part.Names name) ∨
      (∃ sibling ∈ part.children.take index, sibling.Exposes name) ∨
      child.DeclaresBefore inner none name := by
  rw [declaresBefore_cons_iff isChild]
  refine or_congr ?_ (or_congr ?_ ?_)
  · rw [and_comm]
    simp [outward]
  · constructor
    · rintro ⟨earlier, sibling, deeper, less, isSibling, declared, same⟩
      cases deeper with
      | some =>
          by_cases opened : part.opensAt index = true <;> simp [outward, opened] at same
      | none =>
          refine ⟨sibling, List.mem_iff_getElem?.mpr ⟨earlier, ?_⟩, declared⟩
          rw [List.getElem?_take_of_lt less, isSibling]
    · rintro ⟨sibling, member, exposed⟩
      obtain ⟨earlier, taken⟩ := List.mem_iff_getElem?.mp member
      rw [List.getElem?_take, Option.ite_none_right_eq_some] at taken
      obtain ⟨less, isSibling⟩ := taken
      refine ⟨earlier, sibling, none, less, isSibling, exposed, ?_⟩
      rw [outward, outward, opensAt_of_exposes less isSibling isChild exposed]
  · constructor
    · rintro ⟨deeper, declared, same⟩
      cases deeper with
      | some =>
          by_cases opened : part.opensAt index = true <;> simp [outward, opened] at same
      | none => exact declared
    · exact fun declared => ⟨none, declared, rfl⟩

/-- Around a part that opens a scope, only its own name is declared. -/
theorem declaresBefore_of_opensAt (isChild : part.children[index]? = some child)
    (opened : part.opensAt index = true) :
    part.DeclaresBefore (index :: inner) none name ↔ part.Names name := by
  rw [declaresBefore_cons_iff isChild]
  constructor
  · rintro (⟨named, _⟩ | ⟨earlier, sibling, deeper, less, isSibling, ⟨site, declared⟩, same⟩ |
      ⟨deeper, _, same⟩)
    · exact named
    · cases deeper with
      | some => cases same
      | none =>
          have uniform := opensAt_of_exposes less isSibling isChild ⟨site, declared⟩
          simp [outward, uniform, opened] at same
    · cases deeper with
      | some => cases same
      | none => simp [outward, opened] at same
  · exact fun named => .inl ⟨named, rfl⟩

/--
The scopes with which the walk comes to an address: those around the address, each with the names
declared there before it, and outside of them the scopes with which the walk started.
-/
theorem scopesAt_eq_append {address : Address} (reached : part.at? address = some found)
    (scopes : Scopes) :
    ∃ inside outside : Scopes, part.scopesAt scopes address = inside ++ outside ∧
      List.Forall₂ (fun scope opener => ∀ name, Scope.declares scope name = true ↔
        part.DeclaresBefore address (some opener) name) inside (part.scopesAround address) ∧
      Scopes.Gains (part.DeclaresBefore address none) scopes outside := by
  induction address generalizing part scopes with
  | nil =>
      refine ⟨[], scopes, rfl, .nil, Scopes.gains_self ?_ scopes⟩
      rintro name ⟨site, before, _⟩
      exact List.not_lt_nil site before
  | cons index inner ih =>
      obtain ⟨child, isChild, reached⟩ := at?_cons_eq_some_iff.mp reached
      obtain ⟨inside, outside, same, exactly, gains⟩ :=
        ih reached (part.scopesBefore scopes index)
      rw [scopesAt_cons isChild, scopesAround_cons isChild, same]
      have lifted : List.Forall₂ (fun scope opener => ∀ name, Scope.declares scope name = true ↔
          part.DeclaresBefore (index :: inner) (some opener) name) inside
          ((child.scopesAround inner).map (index :: ·)) := by
        rw [List.forall₂_map_right_iff]
        refine exactly.imp fun scope opener agrees name => ?_
        rw [agrees, declaresBefore_deeper isChild]
      have siblings := @foldl_extend_gains (part.children.take index)
        fun sibling _ => sibling.extend_gains
      have outer := fun name => @declaresBefore_outward part child index inner name isChild
      -- What the siblings and the child add goes to the scope around the part, unless the part opens
      -- one of its own, which is then the outermost of those inside.
      cases opened : part.opensAt index with
      | false =>
          simp only [outward, opened] at outer
          have walked := siblings (part.enter scopes)
          rw [scopesBefore, opened] at gains
          refine ⟨inside, outside, rfl, by simpa using lifted, ?_⟩
          refine (((part.enter_gains scopes).trans walked).trans gains).congr fun name => ?_
          simpa [or_assoc] using (outer name).symm
      | true =>
          simp only [outward, opened] at outer
          have walked := siblings ([] :: part.enter scopes)
          rw [scopesBefore, opened] at gains
          obtain ⟨grown, rfl, names⟩ := walked.trans gains
          refine ⟨inside ++ [grown], part.enter scopes, by simp, ?_, ?_⟩
          · refine List.rel_append lifted (.cons (fun name => ?_) .nil)
            exact (names name).trans (by simpa using (outer name).symm)
          · exact (part.enter_gains scopes).congr fun name =>
              (declaresBefore_of_opensAt isChild opened).symm

/-- From the start of a program, the walk carries exactly the scopes around an address. -/
theorem scopesAt_agrees {address : Address} (reached : part.at? address = some found) :
    List.Forall₂ (fun scope opener => ∀ name, Scope.declares scope name = true ↔
        part.DeclaresBefore address (some opener) name)
      (part.scopesAt [] address) (part.scopesAround address) := by
  obtain ⟨inside, outside, same, exactly, gains⟩ := scopesAt_eq_append reached []
  obtain rfl : outside = [] := gains
  rw [same, List.append_nil]
  exact exactly

end Before

/-! ## From part to part -/

section Visits

variable {Result : Type} (visit : Scopes → Part Unit → Result) (scopes : Scopes)

/-- Visits the children of a part, each with the scopes at it. -/
def eachChild (part : Part Unit) : List Result :=
  part.children.mapIdx fun index child => visit (part.scopesBefore scopes index) child

/-- Visits some parts in a row, each with the scopes after those before it. -/
def inTurn : Scopes → List (Part Unit) → List Result
  | _, [] => []
  | scopes, first :: rest => visit scopes first :: inTurn (first.extend scopes) rest

theorem mapIdx_eq_inTurn (parts : List (Part Unit)) :
    parts.mapIdx (fun index part => visit ((parts.take index).foldl extend scopes) part) =
      inTurn visit scopes parts := by
  induction parts generalizing scopes with
  | nil => rfl
  | cons first rest ih => simp [List.mapIdx_cons, inTurn, ← ih]

theorem inTurn_append (parts others : List (Part Unit)) :
    inTurn visit scopes (parts ++ others) =
      inTurn visit scopes parts ++ inTurn visit (parts.foldl extend scopes) others := by
  induction parts generalizing scopes with
  | nil => rfl
  | cons first rest ih => simp [inTurn, ih]

theorem foldl_extend_parameter (parameters : List Token) :
    (parameters.map parameter).foldl extend ([] :: scopes) = scopes.enterFunction parameters := by
  rw [List.foldl_map]
  rfl

theorem eachChild_of_closed {part : Part Unit} (closed : ∀ index, part.opensAt index = false) :
    part.eachChild visit scopes = inTurn visit (part.enter scopes) part.children := by
  simp [eachChild, scopesBefore, closed, mapIdx_eq_inTurn]

theorem eachChild_of_opens {part : Part Unit} (opened : ∀ index, part.opensAt index = true) :
    part.eachChild visit scopes = inTurn visit ([] :: part.enter scopes) part.children := by
  simp [eachChild, scopesBefore, opened, mapIdx_eq_inTurn]

end Visits

end Part

end Loxley
