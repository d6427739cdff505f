import Mathlib.Data.Option.Basic
import Loxley.Proofs.Correspondence

/-!
# Machines that are alike in all but the form of functions

On many pairs of machines everything is alike except how functions are represented. Both machines
then end in the same way, provided that the host tells functions apart no further than the program
does. A host function may keep what it was given and use it later, so it has to treat alike whatever
is alike by then.
-/

set_option autoImplicit false

theorem Option.Rel.imp {α β : Type} {weak strong : α → β → Prop} {left : Option α}
    {right : Option β} (related : Option.Rel strong left right)
    (implies : ∀ value content, strong value content → weak value content) :
    Option.Rel weak left right := by
  cases related with
  | none => exact .none
  | some related => exact .some (implies _ _ related)

namespace Loxley

/-! ## The host -/

section Host

variable (blames : RuntimeError → RuntimeError → Prop)

/-- Errors with causes that are alike. If even the causes are the same, then so are the texts. -/
structure HostError.Alike (error other : HostError) : Prop where
  cause : Option.Rel blames error.cause other.cause
  text : error.cause = other.cause → other.text = error.text

structure HostReply.Alike (alike : Value → Value → Prop) (reply other : HostReply) : Prop where
  value : alike reply.value other.value
  error : Option.Rel (HostError.Alike blames) reply.error other.error

inductive HostEvent.Alike (alike : Value → Value → Prop) : HostEvent → HostEvent → Prop
  | called {identity : Nat} {arguments contents : List Value}
      (related : List.Forall₂ alike arguments contents) :
      Alike alike (.called identity arguments) (.called identity contents)
  | replied {reply other : HostReply} (related : HostReply.Alike blames alike reply other) :
      Alike alike (.replied reply) (.replied other)

variable (allowed : (Value → Value → Prop) → Prop)

/--
Actions of a host function that do the same to values that are alike. Once a function has been
applied, more values may be alike than before, in any of the ways that are allowed.
-/
inductive HostAction.Alike : (Value → Value → Prop) → HostAction → HostAction → Prop
  | answer {alike : Value → Value → Prop} {reply other : HostReply}
      (related : HostReply.Alike blames alike reply other) :
      Alike alike (.answer reply) (.answer other)
  | apply {alike : Value → Value → Prop} {callee content : Value} {arguments contents : List Value}
      {next follow : List HostEvent → HostReply → HostAction} (related : alike callee content)
      (relatedAll : List.Forall₂ alike arguments contents)
      (goesOn : ∀ later : Value → Value → Prop, allowed later →
        (∀ value content, alike value content → later value content) →
        ∀ told known reply other, List.Forall₂ (HostEvent.Alike blames later) told known →
          HostReply.Alike blames later reply other →
          Alike later (next told reply) (follow known other)) :
      Alike alike (.apply callee arguments next) (.apply content contents follow)

/-- A host function that does the same to values that are alike, in any way that is allowed. -/
def Native.Respects (native : Native) : Prop :=
  ∀ alike, allowed alike → ∀ calls told known arguments contents,
    List.Forall₂ (HostEvent.Alike blames alike) told known →
    List.Forall₂ alike arguments contents →
    HostAction.Alike blames allowed alike (native.act calls told arguments)
      (native.act calls known contents)

variable {blames allowed}

theorem HostAction.Alike.fewer {fewer : (Value → Value → Prop) → Prop}
    {alike : Value → Value → Prop} {action other : HostAction}
    (acts : HostAction.Alike blames allowed alike action other)
    (implies : ∀ alike, fewer alike → allowed alike) :
    HostAction.Alike blames fewer alike action other := by
  induction acts with
  | answer related => exact .answer related
  | apply related relatedAll _ ih =>
      exact .apply related relatedAll fun later permitted grown told known reply other toldAlike =>
        ih later (implies later permitted) grown told known reply other toldAlike

theorem Native.Respects.fewer {fewer : (Value → Value → Prop) → Prop} {native : Native}
    (respects : native.Respects blames allowed) (implies : ∀ alike, fewer alike → allowed alike) :
    native.Respects blames fewer :=
  fun alike permitted calls told known arguments contents toldAlike alikeAll =>
    (respects alike (implies alike permitted) calls told known arguments contents toldAlike
      alikeAll).fewer implies

/-- The clock looks at nothing. -/
theorem Machine.clock_respects
    (numbers : ∀ alike, allowed alike → ∀ number, alike (.number number) (.number number))
    (readings : Nat → Float) : (Machine.clock readings).Respects blames allowed :=
  fun alike permitted _ _ _ _ _ _ _ => .answer ⟨numbers alike permitted _, .none⟩

variable {alike weak : Value → Value → Prop}

theorem HostReply.Alike.imp (implies : ∀ value content, alike value content → weak value content)
    {reply other : HostReply} (related : HostReply.Alike blames alike reply other) :
    HostReply.Alike blames weak reply other :=
  ⟨implies _ _ related.value, related.error⟩

theorem HostEvent.Alike.imp (implies : ∀ value content, alike value content → weak value content)
    {event other : HostEvent} (related : HostEvent.Alike blames alike event other) :
    HostEvent.Alike blames weak event other := by
  cases related with
  | called related => exact .called (related.imp implies)
  | replied related => exact .replied (related.imp implies)

/-- What the host got to know is alike to itself, if values are. -/
theorem HostEvent.Within.alike_self {answers : Foreign → Prop} {known : Value → Prop}
    {event : HostEvent} (within : event.Within answers known)
    (values : ∀ value, known value → alike value value)
    (things : ∀ thing, alike (.foreign thing) (.foreign thing)) :
    HostEvent.Alike Eq alike event event := by
  cases event with
  | called identity arguments =>
      exact .called (List.forall₂_same.mpr fun value held => values value (within value held))
  | replied reply =>
      obtain ⟨value, error⟩ := reply
      refine .replied ⟨?_, ?_⟩
      · obtain isKnown | ⟨thing, _, rfl⟩ := within
        · exact values value isKnown
        · exact things thing
      · cases error with
        | none => exact .none
        | some error =>
            obtain ⟨text, cause⟩ := error
            refine .some ⟨?_, fun _ => rfl⟩
            cases cause with
            | none => exact .none
            | some problem => exact .some rfl

end Host

/-! ## Results -/

namespace Result

variable {World α β : Type}

/-- Both computations end in the same way, in a world that has grown. -/
inductive Alike (Later : World → World → Prop) (blames : RuntimeError → RuntimeError → Prop)
    (faults : Fault → Fault → Prop) (machines : World → Machine → Machine → Prop)
    (relation : World → α → α → Prop) (world : World) : Result α → Result α → Prop
  | ok {later : World} {value content : α} {machine other : Machine} (grown : Later world later)
      (related : relation later value content) (alike : machines later machine other) :
      Alike Later blames faults machines relation world (.ok value machine) (.ok content other)
  | error {later : World} {problem issue : RuntimeError} {machine other : Machine}
      (grown : Later world later) (blamed : blames problem issue)
      (alike : machines later machine other) :
      Alike Later blames faults machines relation world (.error problem machine)
        (.error issue other)
  | fault {later : World} {reason cause : Fault} {machine other : Machine}
      (grown : Later world later) (stopped : faults reason cause)
      (alike : machines later machine other) :
      Alike Later blames faults machines relation world (.fault reason machine) (.fault cause other)
  | exhausted : Alike Later blames faults machines relation world .exhausted .exhausted

namespace Alike

variable {Later : World → World → Prop} {blames : RuntimeError → RuntimeError → Prop}
  {faults : Fault → Fault → Prop} {machines within : World → Machine → Machine → Prop}
  {relation : World → α → α → Prop} {wanted : World → β → β → Prop} {world later : World}
  {result full : Result α}

theorem earlier (alike : Alike Later blames faults machines relation later result full)
    (trans : ∀ last, Later later last → Later world last) :
    Alike Later blames faults machines relation world result full := by
  cases alike with
  | ok grown related machines => exact .ok (trans _ grown) related machines
  | error grown blamed machines => exact .error (trans _ grown) blamed machines
  | fault grown stopped machines => exact .fault (trans _ grown) stopped machines
  | exhausted => exact .exhausted

theorem andThen {next follow : α → Machine → Result β}
    (trans : ∀ middle last, Later world middle → Later middle last → Later world last)
    (first : Alike Later blames faults machines relation world result full)
    (second : ∀ later value content machine other, Later world later →
      relation later value content → machines later machine other →
      Alike Later blames faults machines wanted later (next value machine)
        (follow content other)) :
    Alike Later blames faults machines wanted world (result.andThen next)
      (full.andThen follow) := by
  cases first with
  | ok grown related machines =>
      exact (second _ _ _ _ _ grown related machines).earlier fun last => trans _ last grown
  | error grown blamed machines => exact .error grown blamed machines
  | fault grown stopped machines => exact .fault grown stopped machines
  | exhausted => exact .exhausted

theorem ensuring {change adapt : Machine → Machine}
    (first : Alike Later blames faults machines relation world result full)
    (changed : ∀ later machine other, Later world later → machines later machine other →
      within later (change machine) (adapt other)) :
    Alike Later blames faults within relation world (result.ensuring change)
      (full.ensuring adapt) := by
  cases first with
  | ok grown related machines => exact .ok grown related (changed _ _ _ grown machines)
  | error grown blamed machines => exact .error grown blamed (changed _ _ _ grown machines)
  | fault grown stopped machines => exact .fault grown stopped (changed _ _ _ grown machines)
  | exhausted => exact .exhausted

theorem exhausted_iff (alike : Alike Later blames faults machines relation world result full) :
    result = .exhausted ↔ full = .exhausted := by
  cases alike with
  | ok | error | fault => simp
  | exhausted => exact Iff.rfl

end Alike

end Result

theorem Machine.call_of_noRoom {fuel : Nat} {paren : Token} {callee : Value}
    {arguments : List Value} {machine : Machine}
    (arity : callee.arity? = some (arguments.length : Int))
    (noRoom : machine.callLimit ≤ machine.depth) :
    call (fuel + 1) paren callee arguments machine =
      .error { token := paren, mishap := .callsTooDeep } machine := by
  simp only [call, arity, ne_eq, not_true_eq_false, if_false, if_pos noRoom]

/-! ## Likeness of machines -/

/-- A relation between machines that end in the same ways. -/
structure Likeness extends Matching where
  blames : RuntimeError → RuntimeError → Prop
  faults : Fault → Fault → Prop
  refl : ∀ world, Later world world
  trans : ∀ {world middle later}, Later world middle → Later middle later → Later world later
  blame : ∀ {place token} (mishap : Mishap), admits place token →
    blames { token, mishap } { token := code.token place token, mishap }
  fault : ∀ reason, faults reason reason
  read : ∀ {world place machine other name} (reference : Option Nat),
    machines world place machine other → admits place name →
    Result.Alike Later blames faults (machines · place) values world (machine.read name reference)
      (other.read (code.token place name) (code.reference place reference))
  assign : ∀ {world place machine other name value content} (reference : Option Nat),
    machines world place machine other → admits place name → values world value content →
    Result.Alike Later blames faults (machines · place) values world
      (machine.assign name value reference)
      (other.assign (code.token place name) content (code.reference place reference))
  leaveTo : ∀ {world later place inside machine other environment counterpart},
    Later world later → machines later inside machine other →
    scopes world place environment counterpart →
    machines later place (Machine.leaveTo environment machine) (Machine.leaveTo counterpart other)
  depth : ∀ {world place machine other}, machines world place machine other →
    other.depth = machine.depth
  atDepth : ∀ {world place machine other} (depth : Nat), machines world place machine other →
    machines world place { machine with depth } { other with depth }
  callLimit : ∀ {world place machine other}, machines world place machine other →
    other.callLimit = machine.callLimit
  natives : ∀ {world place machine other}, machines world place machine other →
    other.natives = machine.natives
  told : ∀ {world place machine other}, machines world place machine other →
    List.Forall₂ (HostEvent.Alike blames (values world)) machine.told other.told
  countCall : ∀ {world place machine other arguments contents} (identity : Nat),
    machines world place machine other → List.Forall₂ (values world) arguments contents →
    machines world place (machine.countCall identity arguments) (other.countCall identity contents)
  tell : ∀ {world place machine other reply given}, machines world place machine other →
    HostReply.Alike blames (values world) reply given →
    machines world place (machine.tell reply) (other.tell given)
  host : ∀ {world place machine other}, machines world place machine other →
    ∀ native ∈ machine.natives, native.Respects blames fun alike =>
      ∃ later, Later world later ∧ alike = values later

namespace Likeness

variable {L : Likeness}

abbrev Results (L : Likeness) {α : Type} [Holder α] (world : L.World) (place : L.Place) :
    Result α → Result α → Prop :=
  Result.Alike L.Later L.blames L.faults (L.machines · place)
    (fun later => Holder.Alike (L.values later)) world

abbrev Replies (L : Likeness) (world : L.World) (place : L.Place) :
    Result HostReply → Result HostReply → Prop :=
  Result.Alike L.Later L.blames L.faults (L.machines · place)
    (fun later => HostReply.Alike L.blames (L.values later)) world

variable {world later : L.World} {place inside : L.Place} {machine other : Machine}

theorem finishHost (related : L.machines world place machine other) {paren : Token}
    (admitted : L.admits place paren) (native : Text) {value content : Value}
    (alike : L.values world value content) :
    L.Results world place (machine.finish paren (value.ofHost native))
      (other.finish (L.code.token place paren) (content.ofHost native)) := by
  have kept : L.Results world place (.ok value machine) (.ok content other) :=
    .ok (L.refl world) alike related
  cases L.similar alike with
  | function => exact kept
  | plain isPlain =>
      cases value with
      | function closure => exact absurd rfl (isPlain closure)
      | nil | bool | number | string | native => exact kept
      | foreign thing =>
          cases thing with
          | integer | single => exact .ok (L.refl world) (L.literal world (.number _)) related
          | other => exact .error (L.refl world) (L.blame _ admitted) related

theorem blame_at {token : Token} (admitted : L.admits place token) {error given : HostError}
    (alike : HostError.Alike L.blames error given) :
    L.blames (error.at token) (given.at (L.code.token place token)) := by
  obtain ⟨text, cause⟩ := error
  obtain ⟨givenText, givenCause⟩ := given
  obtain ⟨causes, texts⟩ := alike
  cases causes with
  | some blamed => exact blamed
  | none =>
      obtain rfl : givenText = text := texts rfl
      exact L.blame _ admitted

/-- A call ends alike if what the function gave back is alike. -/
theorem conclude (related : L.machines world place machine other) {paren : Token}
    (admitted : L.admits place paren) {callee content : Value}
    (alike : L.values world callee content) {reply given : HostReply}
    (replied : HostReply.Alike L.blames (L.values world) reply given) :
    L.Results world place (machine.conclude paren callee reply)
      (other.conclude (L.code.token place paren) content given) := by
  obtain ⟨value, error⟩ := reply
  obtain ⟨givenValue, givenError⟩ := given
  obtain ⟨values, errors⟩ := replied
  cases errors with
  | some sameError => exact .error (L.refl world) (blame_at admitted sameError) related
  | none =>
      have kept : L.Results world place (.ok value machine) (.ok givenValue other) :=
        .ok (L.refl world) values related
      cases L.similar alike with
      | function => exact kept
      | plain isPlain =>
          cases callee with
          | function closure => exact absurd rfl (isPlain closure)
          | nil | bool | number | string | foreign => exact kept
          | native reference =>
              simp only [Machine.conclude, Machine.nativeName, L.natives related]
              exact finishHost related admitted _ values

theorem reply {environment counterpart : EnvironmentId} {result full : Result Value}
    (grown : L.Later world later) (alike : L.Results later inside result full)
    (scopes : L.scopes world place environment counterpart) :
    L.Replies world place (result.reply.ensuring (Machine.leaveTo environment))
      (full.reply.ensuring (Machine.leaveTo counterpart)) := by
  have left : ∀ last after next, L.Later later last → L.machines last inside after next →
      L.machines last place (Machine.leaveTo environment after)
        (Machine.leaveTo counterpart next) :=
    fun last after next more related => L.leaveTo (L.trans grown more) related scopes
  cases alike with
  | ok more values related =>
      exact .ok (L.trans grown more) ⟨values, .none⟩ (left _ _ _ more related)
  | error more blamed related =>
      refine .ok (L.trans grown more) ⟨L.literal _ .nil, .some ⟨.some blamed, ?_⟩⟩
        (left _ _ _ more related)
      exact fun same => congrArg RuntimeError.text (Option.some.inj same).symm
  | fault more stopped related => exact .fault (L.trans grown more) stopped (left _ _ _ more related)
  | exhausted => exact .exhausted

/-- What a host function does ends alike, if all that it applies does. -/
theorem perform {apply applyOther : Value → List Value → Machine → Result HostReply}
    (applies : ∀ later machine other callee content arguments contents, L.Later world later →
      L.machines later place machine other → L.values later callee content →
      List.Forall₂ (L.values later) arguments contents →
      L.Replies later place (apply callee arguments machine) (applyOther content contents other))
    {alike : Value → Value → Prop} {action reaction : HostAction}
    (acts : HostAction.Alike L.blames
      (fun alike => ∃ later, L.Later world later ∧ alike = L.values later) alike action reaction)
    (grown : L.Later world later) (current : alike = L.values later)
    (related : L.machines later place machine other) :
    L.Replies later place (action.perform apply machine) (reaction.perform applyOther other) := by
  induction acts generalizing later machine other with
  | answer replied =>
      subst current
      exact .ok (L.refl later) replied related
  | @apply alike callee content arguments contents next follow relatedCallee relatedAll _ ih =>
      subst current
      simp only [HostAction.perform]
      refine (applies later machine other callee content arguments contents grown related
        relatedCallee relatedAll).andThen (fun _ _ => L.trans) ?_
      intro last reply given after counterpart more replied relatedAfter
      have told := L.tell relatedAfter replied
      exact ih (L.values last) ⟨last, L.trans grown more, rfl⟩ (fun _ _ => L.grow more)
        _ _ _ _ (L.told told) replied (L.trans grown more) rfl told

theorem native {reference : NativeRef} {arguments contents : List Value} {fuel : Nat}
    (related : L.machines world place machine other)
    (relatedAll : List.Forall₂ (L.values world) arguments contents)
    (applies : ∀ later machine other callee content arguments contents, L.Later world later →
      L.machines later place machine other → L.values later callee content →
      List.Forall₂ (L.values later) arguments contents →
      L.Replies later place (Machine.apply fuel callee arguments machine)
        (Machine.apply fuel content contents other)) :
    L.Replies world place (Machine.apply (fuel + 1) (.native reference) arguments machine)
      (Machine.apply (fuel + 1) (.native reference) contents other) := by
  simp only [Machine.apply, L.natives related]
  cases found : machine.natives[reference.identity]? with
  | none => exact .fault (L.refl world) (L.fault _) related
  | some native =>
      have acts := L.host related native (Array.mem_of_getElem? found) _ ⟨world, L.refl world, rfl⟩
        native.calls _ _ _ _ (L.told related) relatedAll
      exact perform applies acts (L.refl world) rfl
        (L.countCall reference.identity related relatedAll)

/-- Machines that are alike run corresponding code alike. -/
def correspondence (L : Likeness) : Correspondence where
  toMatching := L.toMatching
  results := L.Results
  replies := L.Replies
  ok related alike := .ok (L.refl _) alike related
  error mishap related admitted := .error (L.refl _) (L.blame mishap admitted) related
  fault reason related := .fault (L.refl _) (L.fault reason) related
  exhausted := .exhausted
  andThen first second := first.andThen (fun _ _ => L.trans) second
  leave grown alike scopes :=
    (alike.ensuring fun _ _ _ more related => L.leaveTo (L.trans grown more) related scopes).earlier
      fun _ => L.trans grown
  read := L.read
  assign := L.assign
  room related found := by rwa [L.depth related, L.callLimit related]
  deeper related := by
    rw [L.depth related]
    exact L.atDepth _ related
  tooDeep fuel related admitted arity full := by
    rw [Machine.call_of_noRoom arity (by rwa [L.depth related, L.callLimit related])]
    exact .error (L.refl _) (L.blame _ admitted) related
  conclude related admitted alike replied := by
    rw [L.depth related]
    refine (replied.andThen (fun _ _ => L.trans) fun _ _ _ _ _ grown given relatedAfter => ?_).ensuring
      fun _ _ _ _ relatedLast => L.atDepth _ relatedLast
    exact conclude relatedAfter admitted (L.grow grown alike) given
  noReply := .exhausted
  badApplication related := .fault (L.refl _) (L.fault _) related
  reply := reply
  native := native

end Likeness

end Loxley
