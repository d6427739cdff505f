import Mathlib.Data.List.Induction
import Loxley.Proofs.Walk

/-!
# Diagnostics are scoping faults

What scope analysis complains about is said by addresses alone: a `return` outside of functions, a
second declaration of a name in a scope, and a read of a local variable in its own initializer.
Every such fault has one diagnostic, and the diagnostics follow the text.
-/

set_option autoImplicit false

namespace Loxley

namespace Part

/-- A part is a function. -/
def IsFunction (part : Part Unit) : Prop :=
  ∃ name parameters body, part = stmt (.function name parameters body)

/-- A part is the declaration of a variable. -/
def DeclaresVariable (name : Text) (part : Part Unit) : Prop :=
  ∃ token initializer, part = stmt (.declare token initializer) ∧ token.lexeme = name

/-- The faults of scoping, each with its diagnostic at the token to blame. -/
inductive FaultAt (whole : Part Unit) (address : Address) : Diagnostic → Prop
  | returnAtTopLevel {keyword : Token} {value : Option (Expr Unit)}
      (here : whole.at? address = some (stmt (.giveBack keyword value)))
      (outside : ¬ whole.IsInside IsFunction address) :
      FaultAt whole address (.atToken keyword .returnAtTopLevel)
  | alreadyDeclared {part : Part Unit} {name : Token} {scope : Address}
      (here : whole.at? address = some part) (declared : part.declared? = some name)
      (isLocal : (whole.scopesAround address).head? = some scope)
      (earlier : whole.DeclaresBefore address (some scope) name.lexeme) :
      FaultAt whole address (.atToken name .alreadyDeclared)
  | readInOwnInitializer {name declared : Token} {initializer : Option (Expr Unit)}
      {outer inner : Address} {index : Nat}
      (here : whole.at? address = some (expr (.ident name ())))
      (inside : address = outer ++ index :: inner)
      (declares : whole.at? outer = some (stmt (.declare declared initializer)))
      (isLocal : whole.scopesAround outer ≠ []) (same : declared.lexeme = name.lexeme) :
      FaultAt whole address (.atToken name .readInOwnInitializer)

end Part

/-! ## Listing by address -/

/-- The diagnostics at all the addresses that have one, in the order of the addresses. -/
def Lists (holds : Address → Diagnostic → Prop) (diagnostics : List Diagnostic) : Prop :=
  ∃ faults : List (Address × Diagnostic),
    faults.Pairwise (fun first second => first.1 < second.1) ∧
    (∀ address diagnostic, (address, diagnostic) ∈ faults ↔ holds address diagnostic) ∧
    diagnostics = faults.map (·.2)

namespace Lists

variable {holds others : Address → Diagnostic → Prop} {diagnostics more : List Diagnostic}

theorem congr (listed : Lists holds diagnostics)
    (same : ∀ address diagnostic, holds address diagnostic ↔ others address diagnostic) :
    Lists others diagnostics := by
  obtain ⟨faults, ordered, exactly, rfl⟩ := listed
  exact ⟨faults, ordered, fun address diagnostic =>
    (exactly address diagnostic).trans (same address diagnostic), rfl⟩

theorem nil (nothing : ∀ address diagnostic, ¬ holds address diagnostic) : Lists holds [] :=
  ⟨[], .nil, fun address diagnostic => by simp [nothing address diagnostic], rfl⟩

theorem append (listed : Lists holds diagnostics) (listedMore : Lists others more)
    (ordered : ∀ {first second diagnostic other}, holds first diagnostic → others second other →
      first < second) :
    Lists (fun address diagnostic => holds address diagnostic ∨ others address diagnostic)
      (diagnostics ++ more) := by
  obtain ⟨faults, sorted, exactly, rfl⟩ := listed
  obtain ⟨moreFaults, sortedMore, exactlyMore, rfl⟩ := listedMore
  refine ⟨faults ++ moreFaults, List.pairwise_append.mpr ⟨sorted, sortedMore, ?_⟩, ?_, by simp⟩
  · rintro ⟨first, diagnostic⟩ member ⟨second, other⟩ memberMore
    exact ordered ((exactly first diagnostic).mp member)
      ((exactlyMore second other).mp memberMore)
  · intro address diagnostic
    rw [List.mem_append, exactly, exactlyMore]

/-- Below a child, every address starts with its index. -/
theorem below (listed : Lists holds diagnostics) (index : Nat) :
    Lists (fun address diagnostic => ∃ inner, address = index :: inner ∧ holds inner diagnostic)
      diagnostics := by
  obtain ⟨faults, sorted, exactly, rfl⟩ := listed
  refine ⟨faults.map fun fault => (index :: fault.1, fault.2), ?_, ?_, by simp⟩
  · rw [List.pairwise_map]
    exact sorted.imp fun less => List.cons_lt_cons_iff.mpr (.inr ⟨rfl, less⟩)
  · intro address diagnostic
    simp only [List.mem_map, Prod.exists, Prod.mk.injEq]
    constructor
    · rintro ⟨inner, _, member, rfl, rfl⟩
      exact ⟨inner, rfl, (exactly _ _).mp member⟩
    · rintro ⟨inner, rfl, held⟩
      exact ⟨inner, diagnostic, (exactly _ _).mpr held, rfl, rfl⟩

/-- A part itself has at most one diagnostic. -/
theorem own (atMostOne : diagnostics.length ≤ 1) :
    Lists (fun address diagnostic => address = [] ∧ diagnostic ∈ diagnostics) diagnostics := by
  rcases diagnostics with _ | ⟨single, _ | ⟨second, rest⟩⟩
  · exact nil (by simp)
  · exact ⟨[([], single)], by simp, by simp, rfl⟩
  · simp at atMostOne

theorem getElem?_concat_iff {parts : List (Part Unit)} {last child : Part Unit} {index : Nat} :
    (parts ++ [last])[index]? = some child ↔
      parts[index]? = some child ∨ index = parts.length ∧ last = child := by
  rcases Nat.lt_trichotomy index parts.length with less | rfl | greater
  · simp [List.getElem?_append_left less, Nat.ne_of_lt less]
  · simp
  · have beyond : (parts ++ [last]).length ≤ index := by
      rw [List.length_append]
      exact greater
    simp [List.getElem?_eq_none beyond, Nat.le_of_lt greater, Nat.ne_of_gt greater]

/-- The diagnostics of children come one child after the other. -/
theorem children {parts : List (Part Unit)} {visit : Nat → Part Unit → List Diagnostic}
    {below : Nat → Part Unit → Address → Diagnostic → Prop}
    (each : ∀ index child, parts[index]? = some child →
      Lists (below index child) (visit index child)) :
    Lists (fun address diagnostic => ∃ index child inner, parts[index]? = some child ∧
      address = index :: inner ∧ below index child inner diagnostic)
      (parts.mapIdx visit).flatten := by
  induction parts using List.reverseRecOn with
  | nil => exact nil (by simp)
  | append_singleton parts last ih =>
      have before := ih fun index child isChild =>
        each index child (getElem?_concat_iff.mpr (.inl isChild))
      have after := (each parts.length last (by simp)).below parts.length
      rw [List.mapIdx_concat, List.flatten_append, List.flatten_singleton]
      refine (before.append after ?_).congr fun address diagnostic => ?_
      · rintro _ _ _ _ ⟨index, child, _, isChild, rfl, _⟩ ⟨_, rfl, _⟩
        exact List.cons_lt_cons_iff.mpr (.inl (List.getElem?_eq_some_iff.mp isChild).1)
      · simp [getElem?_concat_iff, or_and_right, exists_or, and_assoc]

end Lists

namespace Part

/-! ## The walk -/

/-- The diagnostics for what a part itself is. -/
def ownFaults (inFunction : Bool) (scopes : Scopes) : Part Unit → List Diagnostic
  | stmt (.declare name _) | stmt (.function name _ _) | parameter name => scopes.duplicate name
  | stmt (.giveBack keyword _) =>
    if inFunction then [] else [.atToken keyword .returnAtTopLevel]
  | expr (.ident name _) => scopes.pendingRead name
  | _ => []

/-- The diagnostics for a part and everything in it. -/
def faults (inFunction : Bool) (scopes : Scopes) : Part Unit → List Diagnostic
  | program body => Stmt.faultsAll inFunction scopes body
  | stmt value => value.faults inFunction scopes
  | parameter name => scopes.duplicate name
  | expr value => value.faults scopes

/-- Whether the children of a part lie in a function. -/
def inFunctionBelow (inFunction : Bool) : Part Unit → Bool
  | stmt (.function _ _ _) => true
  | _ => inFunction

theorem length_ownFaults_le (inFunction : Bool) (scopes : Scopes) (part : Part Unit) :
    (part.ownFaults inFunction scopes).length ≤ 1 := by
  have duplicate : ∀ name, (scopes.duplicate name).length ≤ 1 := by
    intro name
    cases scopes with
    | nil => simp [Scopes.duplicate]
    | cons innermost => by_cases declared : innermost.declares name.lexeme = true <;>
        simp [Scopes.duplicate, declared]
  have pendingRead : ∀ name, (scopes.pendingRead name).length ≤ 1 := by
    intro name
    cases scopes with
    | nil => simp [Scopes.pendingRead]
    | cons innermost => by_cases pending : innermost.isPending name.lexeme = true <;>
        simp [Scopes.pendingRead, pending]
  cases part with
  | program => exact Nat.zero_le 1
  | parameter => exact duplicate _
  | stmt value =>
      cases value with
      | declare | function => exact duplicate _
      | giveBack => cases inFunction <;> simp [ownFaults]
      | expression | print | block | ifThen | ifElse | loop => exact Nat.zero_le 1
  | expr value =>
      cases value with
      | ident => exact pendingRead _
      | literal | group | unary | binary | logical | assign | call => exact Nat.zero_le 1

theorem ownFaults_of_declared {part : Part Unit} {name : Token}
    (declared : part.declared? = some name) (inFunction : Bool) (scopes : Scopes) :
    part.ownFaults inFunction scopes = scopes.duplicate name := by
  cases part with
  | program | expr => cases declared
  | parameter =>
      cases declared
      rfl
  | stmt value =>
      cases value with
      | declare | function =>
          cases declared
          rfl
      | expression | print | block | ifThen | ifElse | loop | giveBack => cases declared

theorem flatten_inTurn_expr (inFunction : Bool) (scopes : Scopes) (values : List (Expr Unit)) :
    (inTurn (faults inFunction) scopes (values.map expr)).flatten =
      Expr.faultsAll scopes values := by
  induction values with
  | nil => rfl
  | cons first rest ih => simpa [inTurn, extend, faults, Expr.faultsAll] using ih

theorem flatten_inTurn_stmt (inFunction : Bool) (scopes : Scopes) (body : List (Stmt Unit)) :
    (inTurn (faults inFunction) scopes (body.map stmt)).flatten =
      Stmt.faultsAll inFunction scopes body := by
  induction body generalizing scopes with
  | nil => rfl
  | cons first rest ih => simpa [inTurn, extend, faults, Stmt.faultsAll] using ih _

theorem flatten_inTurn_parameter (inFunction : Bool) (scopes : Scopes) (parameters : List Token) :
    (inTurn (faults inFunction) scopes (parameters.map parameter)).flatten =
      Scopes.parameterFaults parameters scopes := by
  induction parameters generalizing scopes with
  | nil => rfl
  | cons first rest ih => simpa [inTurn, extend, faults, Scopes.parameterFaults] using ih _

/-- The diagnostics for a part are its own and those for its children, in this order. -/
theorem faults_eq_append (inFunction : Bool) (scopes : Scopes) (part : Part Unit) :
    part.faults inFunction scopes = part.ownFaults inFunction scopes ++
      (part.eachChild (faults (part.inFunctionBelow inFunction)) scopes).flatten := by
  cases part with
  | program body =>
      rw [eachChild_of_closed _ scopes fun _ => rfl]
      exact (flatten_inTurn_stmt inFunction scopes body).symm
  | parameter => exact (List.append_nil _).symm
  | expr value =>
      rw [eachChild_of_closed _ scopes fun _ => rfl]
      cases value with
      | literal => rfl
      | ident => exact (List.append_nil _).symm
      | group | unary | binary | logical | assign =>
          simp [faults, ownFaults, inTurn, children, extend, enter, Expr.faults]
      | call _ callee arguments =>
          exact congrArg _ (flatten_inTurn_expr inFunction scopes arguments).symm
  | stmt value =>
      cases value with
      | expression | print | ifThen | ifElse | loop =>
          simp [faults, ownFaults, eachChild, inFunctionBelow, children, Stmt.faults, scopesBefore,
            opensAt, enter, extend]
      | declare _ value | giveBack _ value =>
          cases value <;>
            simp [faults, ownFaults, eachChild, children, Stmt.faults, scopesBefore, opensAt, enter]
      | block _ body =>
          rw [eachChild_of_opens _ scopes fun _ => rfl]
          exact (flatten_inTurn_stmt inFunction ([] :: scopes) body).symm
      | function name parameters body =>
          rw [eachChild_of_opens _ scopes fun _ => rfl, children, inTurn_append,
            List.flatten_append, flatten_inTurn_parameter, foldl_extend_parameter,
            flatten_inTurn_stmt, ← List.append_assoc]
          rfl

/-- Whether the walk comes to an address in a function. -/
def inFunctionAt : Bool → Part Unit → Address → Bool
  | inFunction, _, [] => inFunction
  | inFunction, part, index :: inner =>
    (part.children[index]?.map fun child =>
      child.inFunctionAt (part.inFunctionBelow inFunction) inner).getD false

/-- The walk finds a fault at an address. -/
def FoundAt (part : Part Unit) (inFunction : Bool) (scopes : Scopes) (address : Address)
    (diagnostic : Diagnostic) : Prop :=
  ∃ found, part.at? address = some found ∧
    diagnostic ∈ found.ownFaults (part.inFunctionAt inFunction address)
      (part.scopesAt scopes address)

section Child

variable {part child : Part Unit} {index : Nat} {inner : Address}

theorem inFunctionAt_cons (isChild : part.children[index]? = some child) (inFunction : Bool) :
    part.inFunctionAt inFunction (index :: inner) =
      child.inFunctionAt (part.inFunctionBelow inFunction) inner := by
  simp [inFunctionAt, isChild]

theorem foundAt_nil_iff {inFunction : Bool} {scopes : Scopes} {diagnostic : Diagnostic} :
    part.FoundAt inFunction scopes [] diagnostic ↔
      diagnostic ∈ part.ownFaults inFunction scopes := by
  simp [FoundAt, at?, inFunctionAt, scopesAt]

theorem foundAt_cons_iff {inFunction : Bool} {scopes : Scopes} {diagnostic : Diagnostic} :
    part.FoundAt inFunction scopes (index :: inner) diagnostic ↔
      ∃ child, part.children[index]? = some child ∧
        child.FoundAt (part.inFunctionBelow inFunction) (part.scopesBefore scopes index) inner
          diagnostic := by
  constructor
  · rintro ⟨found, reached, member⟩
    obtain ⟨child, isChild, reached⟩ := at?_cons_eq_some_iff.mp reached
    rw [inFunctionAt_cons isChild, scopesAt_cons isChild] at member
    exact ⟨child, isChild, found, reached, member⟩
  · rintro ⟨child, isChild, found, reached, member⟩
    refine ⟨found, (at?_cons isChild).trans reached, ?_⟩
    rwa [inFunctionAt_cons isChild, scopesAt_cons isChild]

end Child

/-- The diagnostics of a part are those that the walk finds at its addresses. -/
theorem lists_faults (part : Part Unit) (inFunction : Bool) (scopes : Scopes) :
    Lists (part.FoundAt inFunction scopes) (part.faults inFunction scopes) := by
  induction part using induction generalizing inFunction scopes with
  | step part ih =>
      have own := Lists.own (part.length_ownFaults_le inFunction scopes)
      have below := Lists.children fun index child isChild =>
        ih child (List.mem_of_getElem? isChild) (part.inFunctionBelow inFunction)
          (part.scopesBefore scopes index)
      rw [faults_eq_append]
      refine (own.append below ?_).congr fun address diagnostic => ?_
      · rintro _ _ _ _ ⟨rfl, _⟩ ⟨_, _, _, _, rfl, _⟩
        exact List.nil_lt_cons ..
      · cases address with
        | nil => simp [foundAt_nil_iff]
        | cons index inner =>
            rw [foundAt_cons_iff]
            simp only [reduceCtorEq, false_and, false_or, List.cons.injEq]
            constructor
            · rintro ⟨_, child, _, isChild, ⟨rfl, rfl⟩, found⟩
              exact ⟨child, isChild, found⟩
            · rintro ⟨child, isChild, found⟩
              exact ⟨index, child, inner, isChild, ⟨rfl, rfl⟩, found⟩

/-! ## What the walk finds -/

theorem inFunctionBelow_eq_true_iff (inFunction : Bool) (part : Part Unit) :
    part.inFunctionBelow inFunction = true ↔ inFunction = true ∨ part.IsFunction := by
  have other : ¬ part.IsFunction → part.inFunctionBelow inFunction = inFunction := by
    intro notFunction
    unfold inFunctionBelow
    split
    · exact absurd ⟨_, _, _, rfl⟩ notFunction
    · rfl
  by_cases function : part.IsFunction
  · obtain ⟨_, _, _, rfl⟩ := id function
    simp [inFunctionBelow, function]
  · rw [other function, or_iff_left function]

theorem inFunctionAt_eq_true_iff {part found : Part Unit} {address : Address}
    (reached : part.at? address = some found) (inFunction : Bool) :
    part.inFunctionAt inFunction address = true ↔
      inFunction = true ∨ part.IsInside IsFunction address := by
  induction address generalizing part inFunction with
  | nil => simp [inFunctionAt, not_isInside_nil]
  | cons index inner ih =>
      obtain ⟨child, isChild, reached⟩ := at?_cons_eq_some_iff.mp reached
      rw [inFunctionAt_cons isChild, ih reached, inFunctionBelow_eq_true_iff,
        isInside_cons_iff isChild, or_assoc]

end Part

theorem Scope.isPending_cons (scope : Scope) (declared name : Text) (ready : Bool) :
    Scope.isPending ((declared, ready) :: scope) name =
      if name = declared then !ready else scope.isPending name := by
  by_cases same : name = declared
  · cases ready <;> simp [Scope.isPending, same]
  · simp [Scope.isPending, List.lookup_cons, same, beq_eq_false_iff_ne.mpr same]

namespace Scopes

/-- In the innermost scope, a name is waiting for its initializer. -/
def Awaits (scopes : Scopes) (name : Text) : Prop :=
  ∃ innermost outer, scopes = innermost :: outer ∧ Scope.isPending innermost name = true

/-- No name is waiting for its initializer in any scope. -/
def Settled (scopes : Scopes) : Prop :=
  ∀ scope ∈ scopes, ∀ name, Scope.isPending scope name = false

variable {scopes : Scopes}

theorem Settled.not_awaits (settled : scopes.Settled) (name : Text) : ¬ scopes.Awaits name := by
  rintro ⟨innermost, outer, rfl, pending⟩
  simp [settled innermost List.mem_cons_self name] at pending

theorem Settled.enter (settled : scopes.Settled) : Settled ([] :: scopes) := by
  intro scope member name
  rcases List.mem_cons.mp member with rfl | member
  · rfl
  · exact settled scope member name

theorem Settled.declare (settled : scopes.Settled) (name : Text) :
    (scopes.declare name true).Settled := by
  cases scopes with
  | nil => exact settled
  | cons innermost outer =>
      intro scope member sought
      rcases List.mem_cons.mp member with rfl | member
      · rw [Scope.isPending_cons, settled innermost List.mem_cons_self]
        simp
      · exact settled scope (List.mem_cons_of_mem innermost member) sought

theorem Settled.awaits_declare_iff (settled : scopes.Settled) (declared name : Text) :
    (scopes.declare declared false).Awaits name ↔ scopes ≠ [] ∧ declared = name := by
  cases scopes with
  | nil => simp [Awaits]
  | cons innermost outer =>
      have others := settled innermost List.mem_cons_self name
      simp [Awaits, Scopes.declare, Scope.isPending_cons, others, @eq_comm _ name]

theorem mem_duplicate_iff {name : Token} {diagnostic : Diagnostic} :
    diagnostic ∈ scopes.duplicate name ↔
      (∃ innermost outer, scopes = innermost :: outer ∧
        Scope.declares innermost name.lexeme = true) ∧
      diagnostic = .atToken name .alreadyDeclared := by
  cases scopes with
  | nil => simp [duplicate]
  | cons innermost outer => simp [duplicate]

theorem mem_pendingRead_iff {name : Token} {diagnostic : Diagnostic} :
    diagnostic ∈ scopes.pendingRead name ↔
      scopes.Awaits name.lexeme ∧ diagnostic = .atToken name .readInOwnInitializer := by
  cases scopes with
  | nil => simp [pendingRead, Awaits]
  | cons innermost outer => simp [pendingRead, Awaits]

end Scopes

namespace Part

theorem extend_settled (part : Part Unit) {scopes : Scopes} (settled : scopes.Settled) :
    (part.extend scopes).Settled := by
  induction part using induction generalizing scopes with
  | step part ih =>
      cases part with
      | program body =>
          refine List.foldlRecOn body Stmt.extend settled fun scopes settled value member => ?_
          exact ih (stmt value) (List.mem_map_of_mem member) settled
      | parameter => exact settled.declare _
      | expr => exact settled
      | stmt value =>
          cases value with
          | declare | function => exact settled.declare _
          | expression | print | block | loop | giveBack => exact settled
          | ifThen _ _ consequent => exact ih (stmt consequent) (by simp [children]) settled
          | ifElse _ _ consequent alternative =>
              exact ih (stmt alternative) (by simp [children])
                (ih (stmt consequent) (by simp [children]) settled)

section Child

variable {part child found : Part Unit} {index : Nat} {address : Address} {scopes : Scopes}

/-- An expression right below a statement comes first; a variable has nothing else below it. -/
theorem child_cases (isStmt : ∀ value, part ≠ expr value)
    (isChild : part.children[index]? = some child) :
    (∃ value, child = expr value ∧ ∀ scopes, part.scopesBefore scopes index = part.enter scopes) ∨
      (∀ value, child ≠ expr value) ∧ ∀ name, ¬ part.DeclaresVariable name := by
  have first : ∀ value, index = 0 → part.opensAt 0 = false → child = expr value →
      ∃ value, child = expr value ∧
        ∀ scopes, part.scopesBefore scopes index = part.enter scopes := by
    rintro value rfl closed rfl
    exact ⟨value, rfl, fun scopes => by simp [scopesBefore, closed]⟩
  cases part with
  | program body =>
      obtain ⟨value, _, rfl⟩ := List.mem_map.mp (List.mem_of_getElem? isChild)
      exact .inr ⟨by simp, by simp [DeclaresVariable]⟩
  | parameter => cases isChild
  | expr value => exact absurd rfl (isStmt value)
  | stmt value =>
      cases value with
      | expression _ value | print _ value =>
          cases index with
          | zero => exact .inl (first value rfl rfl (Option.some.inj isChild).symm)
          | succ => cases isChild
      | declare _ value | giveBack _ value =>
          cases value with
          | none => cases isChild
          | some value =>
              cases index with
              | zero => exact .inl (first value rfl rfl (Option.some.inj isChild).symm)
              | succ => cases isChild
      | ifThen _ test | ifElse _ test | loop _ test =>
          cases index with
          | zero => exact .inl (first test rfl rfl (Option.some.inj isChild).symm)
          | succ index =>
              have later := List.mem_of_getElem? (List.getElem?_cons_succ.symm.trans isChild)
              refine .inr ⟨fun value same => ?_, by simp [DeclaresVariable]⟩
              subst same
              simp at later
      | block _ body =>
          obtain ⟨value, _, rfl⟩ := List.mem_map.mp (List.mem_of_getElem? isChild)
          exact .inr ⟨by simp, by simp [DeclaresVariable]⟩
      | function _ parameters body =>
          refine .inr ⟨fun value same => ?_, by simp [DeclaresVariable]⟩
          subst same
          have member := List.mem_of_getElem? isChild
          simp [children] at member

theorem scopesBefore_settled (settled : scopes.Settled)
    (noVariable : ∀ name, ¬ part.DeclaresVariable name) :
    (part.scopesBefore scopes index).Settled := by
  have entered : (part.enter scopes).Settled := by
    unfold enter
    split
    · exact absurd ⟨_, _, rfl, rfl⟩ (noVariable _)
    · exact settled.declare _
    · exact settled.declare _
    · exact settled
  refine List.foldlRecOn _ extend ?_ fun scopes settled sibling _ => sibling.extend_settled settled
  cases part.opensAt index with
  | false => exact entered
  | true => exact entered.enter

theorem scopesBefore_expr (value : Expr Unit) (scopes : Scopes) (index : Nat) :
    (expr value).scopesBefore scopes index = scopes := by
  refine List.foldlRecOn _ extend (motive := (· = scopes)) rfl ?_
  rintro _ rfl sibling member
  obtain ⟨inner, rfl⟩ := child_of_expr (List.mem_of_mem_take member)
  rfl

theorem scopesAt_expr {value : Expr Unit} (reached : (expr value).at? address = some found) :
    (expr value).scopesAt scopes address = scopes := by
  induction address generalizing value with
  | nil => rfl
  | cons index inner ih =>
      obtain ⟨child, isChild, reached⟩ := at?_cons_eq_some_iff.mp reached
      obtain ⟨next, rfl⟩ := child_of_expr (List.mem_of_getElem? isChild)
      rw [scopesAt_cons isChild, scopesBefore_expr, ih reached]

theorem not_isInside_expr (value : Expr Unit) (name : Text) (address : Address) :
    ¬ (expr value).IsInside (DeclaresVariable name) address := by
  rintro ⟨outer, _, _, _, _, reached, _, _, rfl, _⟩
  obtain ⟨_, same⟩ := at?_expr reached
  cases same

/-- A name awaits its initializer exactly inside the declaration of a local variable. -/
theorem awaits_scopesAt_iff (isStmt : ∀ value, part ≠ expr value)
    (reached : part.at? address = some found) (settled : scopes.Settled) (name : Text) :
    (part.scopesAt scopes address).Awaits name ↔
      part.scopesAt scopes address ≠ [] ∧ part.IsInside (DeclaresVariable name) address := by
  induction address generalizing part scopes with
  | nil => simp [scopesAt, settled.not_awaits, not_isInside_nil]
  | cons index inner ih =>
      obtain ⟨child, isChild, below⟩ := at?_cons_eq_some_iff.mp reached
      rw [scopesAt_cons isChild, isInside_cons_iff isChild]
      -- Only below a variable is anything pending, and there are only expressions below it.
      by_cases noVariable : ∀ name, ¬ part.DeclaresVariable name
      · have settledBelow := @scopesBefore_settled part index scopes settled noVariable
        rw [or_iff_right (noVariable name)]
        rcases child_cases isStmt isChild with ⟨value, rfl, _⟩ | ⟨isStmt, _⟩
        · simp [scopesAt_expr below, settledBelow.not_awaits, not_isInside_expr]
        · exact ih isStmt below settledBelow
      · rcases child_cases isStmt isChild with ⟨value, rfl, first⟩ | ⟨_, absent⟩
        · obtain ⟨_, token, initializer, rfl, _⟩ : ∃ name, part.DeclaresVariable name := by
            simpa using noVariable
          rw [scopesAt_expr below, first, or_iff_left (not_isInside_expr value name inner), enter,
            settled.awaits_declare_iff]
          cases scopes <;> simp [DeclaresVariable, Scopes.declare]
        · exact absurd absent noVariable

end Child

/-! ## Faults by address -/

section Found

variable {whole : Part Unit} {found : Part Unit} {address : Address}

/-- No scope is opened in the declaration of a variable. -/
theorem scopesAround_initializer {outer inner : Address} {index : Nat} {name : Token}
    {initializer : Option (Expr Unit)}
    (declares : whole.at? outer = some (stmt (.declare name initializer))) :
    whole.scopesAround (outer ++ index :: inner) = whole.scopesAround outer := by
  have nothing : (stmt (.declare name initializer)).scopesAround (index :: inner) = [] := by
    cases isChild : (stmt (.declare name initializer)).children[index]? with
    | none => simp [scopesAround, isChild, opensAt]
    | some child =>
        obtain ⟨value, rfl⟩ := exists_expr_of_mem_map (List.mem_of_getElem? isChild)
        simp [scopesAround_cons isChild, scopesAround_expr, opensAt]
  rw [scopesAround_append declares, nothing]
  rfl

theorem scopesAt_eq_nil_iff (reached : whole.at? address = some found) :
    whole.scopesAt [] address = [] ↔ whole.scopesAround address = [] := by
  have same := (scopesAt_agrees reached).length_eq
  rw [← List.length_eq_zero_iff, same, List.length_eq_zero_iff]

theorem declaredTwice_iff (reached : whole.at? address = some found) (name : Text) :
    (∃ innermost outer, whole.scopesAt [] address = innermost :: outer ∧
        Scope.declares innermost name = true) ↔
      ∃ scope, (whole.scopesAround address).head? = some scope ∧
        whole.DeclaresBefore address (some scope) name := by
  have agrees := scopesAt_agrees reached
  generalize whole.scopesAt [] address = scopes at agrees
  generalize whole.scopesAround address = openers at agrees
  cases agrees with
  | nil => simp
  | cons same => simp [same name]

theorem readInitializer_iff (isStmt : ∀ value, whole ≠ expr value)
    (reached : whole.at? address = some found) (name : Text) :
    (whole.scopesAt [] address).Awaits name ↔
      ∃ declared initializer outer index inner, address = outer ++ index :: inner ∧
        whole.at? outer = some (stmt (.declare declared initializer)) ∧
        whole.scopesAround outer ≠ [] ∧ declared.lexeme = name := by
  rw [awaits_scopesAt_iff isStmt reached (by simp [Scopes.Settled]), Ne,
    scopesAt_eq_nil_iff reached]
  constructor
  · rintro ⟨isLocal, outer, index, inner, _, rfl, declares, declared, initializer, rfl, same⟩
    rw [scopesAround_initializer declares] at isLocal
    exact ⟨declared, initializer, outer, index, inner, rfl, declares, isLocal, same⟩
  · rintro ⟨declared, initializer, outer, index, inner, rfl, declares, isLocal, same⟩
    refine ⟨?_, outer, index, inner, _, rfl, declares, declared, initializer, rfl, same⟩
    rwa [scopesAround_initializer declares]

/-- From the start of a program, the walk finds the faults of scoping. -/
theorem foundAt_iff_faultAt (isStmt : ∀ value, whole ≠ expr value) (diagnostic : Diagnostic) :
    whole.FoundAt false [] address diagnostic ↔ whole.FaultAt address diagnostic := by
  constructor
  · rintro ⟨found, reached, member⟩
    have redeclared : ∀ name, found.declared? = some name →
        diagnostic ∈ (whole.scopesAt [] address).duplicate name →
        whole.FaultAt address diagnostic := by
      intro name declared member
      obtain ⟨twice, rfl⟩ := Scopes.mem_duplicate_iff.mp member
      obtain ⟨scope, isLocal, earlier⟩ := (declaredTwice_iff reached name.lexeme).mp twice
      exact .alreadyDeclared reached declared isLocal earlier
    cases found with
    | program => cases member
    | parameter name => exact redeclared name rfl member
    | stmt value =>
        cases value with
        | declare name | function name => exact redeclared name rfl member
        | giveBack keyword value =>
            have inside := inFunctionAt_eq_true_iff reached false
            cases inFunction : whole.inFunctionAt false address with
            | true => simp [ownFaults, inFunction] at member
            | false =>
                obtain rfl : diagnostic = .atToken keyword .returnAtTopLevel := by
                  simpa [ownFaults, inFunction] using member
                exact .returnAtTopLevel reached fun isInside => by
                  simp [inFunction, isInside] at inside
        | expression | print | block | ifThen | ifElse | loop => cases member
    | expr value =>
        cases value with
        | ident name =>
            obtain ⟨awaits, rfl⟩ := Scopes.mem_pendingRead_iff.mp member
            obtain ⟨declared, initializer, outer, index, inner, inside, declares, isLocal, same⟩ :=
              (readInitializer_iff isStmt reached name.lexeme).mp awaits
            exact .readInOwnInitializer reached inside declares isLocal same
        | literal | group | unary | binary | logical | assign | call => cases member
  · intro fault
    cases fault with
    | returnAtTopLevel here outside =>
        have topLevel : whole.inFunctionAt false address = false := by
          simpa [outside] using inFunctionAt_eq_true_iff here false
        exact ⟨_, here, by simp [ownFaults, topLevel]⟩
    | @alreadyDeclared part name scope here declared isLocal earlier =>
        have twice := (declaredTwice_iff here name.lexeme).mpr ⟨scope, isLocal, earlier⟩
        refine ⟨part, here, ?_⟩
        rw [ownFaults_of_declared declared]
        exact Scopes.mem_duplicate_iff.mpr ⟨twice, rfl⟩
    | @readInOwnInitializer name declared initializer outer inner index here inside declares isLocal
        same =>
        refine ⟨_, here, Scopes.mem_pendingRead_iff.mpr ⟨?_, rfl⟩⟩
        exact (readInitializer_iff isStmt here name.lexeme).mpr
          ⟨declared, initializer, outer, index, inner, inside, declares, isLocal, same⟩

end Found

end Part

/--
The diagnostics of scope analysis are exactly the faults of scoping, one for every address that has
one and in the order of the text, in these words.
-/
theorem Stmt.programFaults_list_scoping_faults (program : List (Stmt Unit)) :
    Lists (Part.program program).FaultAt (Stmt.programFaults program) ∧
      Problem.message .returnAtTopLevel = "Can't return from top-level code." ∧
      Problem.message .alreadyDeclared = "Already a variable with this name in this scope." ∧
      Problem.message .readInOwnInitializer =
        "Can't read local variable in its own initializer." := by
  refine ⟨?_, rfl, rfl, rfl⟩
  refine ((Part.program program).lists_faults false []).congr fun address diagnostic => ?_
  exact Part.foundAt_iff_faultAt (by simp) diagnostic

end Loxley
