import Loxley.Markdown.Code

/-!
# Links

The targets of links, and the definitions by which labels get targets. Only where they end matters, and
which labels are defined.
-/

set_option autoImplicit false

namespace Loxley.Markdown

/--
The content up to a closing mark and what follows it. An opening mark inside of it is not allowed, and
marks after a backslash do not count.
-/
def closure? (opening closing : Nat) : List Nat → Option (List Nat × List Nat)
  | [] => none
  | [code] => if code == closing then some ([], []) else none
  | code :: next :: rest =>
    let isEscape := code == 92 && isMarkCode next
    if !isEscape && code == closing then some ([], next :: rest)
    else if !isEscape && code == opening then none
    else if isEscape then
      match closure? opening closing rest with
      | none => none
      | some (content, after) => some (code :: next :: content, after)
    else
      match closure? opening closing (next :: rest) with
      | none => none
      | some (content, after) => some (code :: content, after)

/-- What follows a target between angles, which ends on the same line. -/
def afterAngled? : List Nat → Option (List Nat)
  | [] => none
  | [code] => if code == 62 then some [] else none
  | code :: next :: rest =>
    if code == 92 && isMarkCode next then afterAngled? rest
    else if code == 62 then some (next :: rest)
    else if code == 10 then none
    else afterAngled? (next :: rest)

/-- What follows a target without angles: it ends at white space or at a parenthesis too many. -/
def afterBare (depth : Nat) : List Nat → List Nat
  | [] => []
  | [code] => if isSpaceCode code || (code == 41 && depth == 0) then [code] else []
  | code :: next :: rest =>
    if code == 92 && isMarkCode next then afterBare depth rest
    else if code == 40 then afterBare (depth + 1) (next :: rest)
    else if code == 41 then
      match depth with
      | 0 => code :: next :: rest
      | depth + 1 => afterBare depth (next :: rest)
    else if isSpaceCode code then code :: next :: rest
    else afterBare depth (next :: rest)

def afterTarget? (codes : List Nat) : Option (List Nat) :=
  match after? 60 codes with
  | some rest => afterAngled? rest
  | none =>
    let rest := afterBare 0 codes
    if rest.length == codes.length then none else some rest

/-- The closing mark for the opening mark of a title. -/
def titleEnd? (code : Nat) : Option Nat :=
  if code == 34 || code == 39 then some code
  else if code == 40 then some 41
  else none

def afterTitle? : List Nat → Option (List Nat)
  | [] => none
  | first :: rest =>
    match titleEnd? first with
    | none => none
    | some closing => (closure? first closing rest).map (·.2)

/-- What follows the target of a link in parentheses, after the opening one. -/
def afterInlineTarget? (codes : List Nat) : Option (List Nat) :=
  let start := codes.dropWhile isSpaceCode
  match after? 41 start with
  | some rest => some rest
  | none =>
    match afterTarget? start with
    | none => none
    | some rest =>
      let tail := rest.dropWhile isSpaceCode
      match after? 41 tail with
      | some rest => some rest
      | none =>
        match afterTitle? tail with
        | none => none
        | some rest => after? 41 (rest.dropWhile isSpaceCode)

/-! ## Labels and their definitions -/

/-- A label as it is compared, after some white space or not. -/
def normalizeFrom (pending : Bool) : List Nat → List Nat
  | [] => []
  | code :: rest =>
    if isSpaceCode code then normalizeFrom true rest
    else if pending then 32 :: lowerCode code :: normalizeFrom false rest
    else lowerCode code :: normalizeFrom false rest

/-- A label as it is compared: runs of white space are one space, and the case does not count. -/
def normalizeLabel (label : List Nat) : List Nat :=
  normalizeFrom false (label.dropWhile isSpaceCode)

/-- What follows the title of a definition, or the definition itself if no title follows. -/
def afterDefinitionTitle? (codes : List Nat) : Option (List Nat) :=
  let ends := restOfLineIsBlank codes
  let start := codes.dropWhile isSpaceCode
  let without := if ends then some (afterLine codes) else none
  match start.head?.bind titleEnd? with
  | none => without
  | some _ =>
    if start.length == codes.length then none
    else
      match afterTitle? start with
      | none => without
      | some rest => if restOfLineIsBlank rest then some (afterLine rest) else without

/-- A definition at the start of a paragraph: its label and what follows it. -/
def definition? (codes : List Nat) : Option (List Nat × List Nat) :=
  match after? 91 codes with
  | none => none
  | some rest =>
    match closure? 91 93 rest with
    | none => none
    | some (label, afterLabel) =>
      if label.all isSpaceCode then none
      else
        match after? 58 afterLabel with
        | none => none
        | some target =>
          match afterTarget? (target.dropWhile isSpaceCode) with
          | none => none
          | some tail => (afterDefinitionTitle? tail).map fun rest => (normalizeLabel label, rest)

/-- The labels that are defined at the start of a paragraph, and how much of it is left. -/
def definitions : Nat → List Nat → List (List Nat) × List Nat
  | 0, codes => ([], codes)
  | fuel + 1, codes =>
    match definition? codes with
    | none => ([], codes)
    | some (label, rest) =>
      match definitions fuel rest with
      | (labels, left) => (label :: labels, left)

end Loxley.Markdown
