import Loxley.Yaml.Node
import Loxley.Yaml.Token.Lexer

/-!
# ReadState YAML documents

The nodes that the tokens of a document make up. Only the first document of a text is read; what follows
it is not looked at, except for the few tokens that are found in advance.
-/

set_option autoImplicit false

namespace Loxley.Yaml

/-- The state in which nodes are read. -/
structure ReadState where
  tokens : Tokens
  /-- The addresses of tag handles. -/
  handles : List (Text × Text) := []
  /-- The places of named nodes in the table, latest first. -/
  anchors : List (Text × Nat) := []
  named : Array Node := #[]

/-- Reads nodes from tokens. -/
abbrev ReadM := StateT ReadState (Except Error)

namespace ReadM

/-- The next token. Tokens are found two in advance, so an error shows before they run out. -/
def peek : ReadM Token := do
  let tokens := (← get).tokens
  match tokens.list, tokens.failure with
  | token :: _ :: _ :: _, _ => pure token
  | _, some failure => throw failure
  | token :: _, none => pure token
  | [], none => pure { kind := .finish, line := 0 }

def skip : ReadM Unit :=
  modify fun reading =>
    { reading with tokens := { reading.tokens with list := reading.tokens.list.drop 1 } }

/-- Fails at a token, with the line where the surrounding part starts. -/
def fail {α : Type} (problem : Problem) (context : Nat) (token : Token) : ReadM α :=
  throw (.inStructure problem context token.line)

/-- Passes over the next token if it is of a kind. -/
def skipIf (kind : TokenKind) : ReadM Bool := do
  if (← peek).kind = kind then
    skip
    pure true
  else pure false

end ReadM

open ReadM

/-! ## Properties of nodes -/

/-- The name and the tag that a node is given. -/
structure Properties where
  /-- The line on which the node starts, counted from zero. -/
  line : Nat
  name : Option Text := none
  tag : Option Text := none

def Properties.isSome (properties : Properties) : Bool :=
  properties.name.isSome || properties.tag.isSome

/-- The tag of a node, given the one it has by itself. -/
def Properties.tagOr (properties : Properties) (own : Tag) : Tag :=
  match properties.tag with
  | none => own
  | some tag => if tag = [33] then own else .ofText tag

/-- The whole tag for a handle and a suffix. -/
def wholeTag (context : Nat) (token : Token) (handle suffix : Text) : ReadM Text := do
  if handle.isEmpty then pure suffix
  else
    match (← get).handles.lookup handle with
    | some address => pure (address ++ suffix)
    | none => fail .undefinedHandle context token

def name? : ReadM (Option Text) := do
  match (← peek).kind with
  | .anchor name =>
    skip
    pure (some name)
  | _ => pure none

def tag? (context : Nat) : ReadM (Option Text) := do
  let token ← peek
  match token.kind with
  | .tag handle suffix =>
    skip
    some <$> wholeTag context token handle suffix
  | _ => pure none

/-- Reads the name and the tag of a node, in either order. -/
def properties : ReadM Properties := do
  let line := (← peek).line
  match ← name? with
  | some name => pure { line, name := some name, tag := ← tag? line }
  | none =>
    match ← tag? line with
    | some tag => pure { line, name := ← name?, tag := some tag }
    | none => pure { line }

/-- Makes room in the table for a node that has a name. -/
def register (properties : Properties) : ReadM (Option Nat) :=
  match properties.name with
  | none => pure none
  | some name =>
    modifyGet fun reading =>
      (some reading.named.size,
        { reading with
          anchors := (name, reading.named.size) :: reading.anchors
          named := reading.named.push (.empty 0) })

/-- Puts a node into the table, if it has a place there. -/
def record (place : Option Nat) (node : Node) : ReadM Node := do
  match place with
  | none => pure node
  | some place =>
    modify fun reading => { reading with named := reading.named.setIfInBounds place node }
    pure node

def referenceNode (line : Nat) (name : Text) : ReadM Node := do
  match (← get).anchors.lookup name with
  | some target => pure (.reference line name target)
  | none => throw { problem := .unknownAnchor name }

/-! ## Nodes -/

/-- Where a node stands, which decides what it may be. -/
inductive Position where
  | flow
  | block
  /-- A key or a value of a block mapping, where items need not be indented. -/
  | entry
deriving DecidableEq

/-- Whether no node but an empty one stands before a token of a block mapping. -/
def endsEntry (kind : TokenKind) : Bool :=
  kind = .key || kind = .value || kind = .blockEnd

mutual

def node : Nat → Position → ReadM Node
  | 0, _ => do fail .noNode 0 (← peek)
  | fuel + 1, position => do
    let first ← peek
    match first.kind with
    | .reference name =>
      skip
      referenceNode (first.line + 1) name
    | _ =>
      let given ← properties
      let place ← register given
      let token ← peek
      let line := given.line + 1
      match token.kind with
      | .scalar plain text =>
        skip
        let own := if plain then Node.plainTag text else .text
        record place (.scalar line (given.tagOr own) text)
      | .flowSequenceStart =>
        skip
        let items ← flowItems fuel token.line true
        record place (.sequence line (given.tagOr .sequence) items)
      | .flowMappingStart =>
        skip
        let entries ← flowEntries fuel token.line true
        record place (.mapping line (given.tagOr .mapping) entries)
      | kind =>
        if kind = .item && position = .entry then
          let items ← looseItems fuel
          record place (.sequence line (given.tagOr .sequence) items)
        else if kind = .sequenceStart && position ≠ .flow then
          skip
          let items ← blockItems fuel token.line
          record place (.sequence line (given.tagOr .sequence) items)
        else if kind = .mappingStart && position ≠ .flow then
          skip
          let entries ← blockEntries fuel token.line
          record place (.mapping line (given.tagOr .mapping) entries)
        else if given.isSome then record place (.scalar line (given.tagOr .null) [])
        else fail .noNode given.line token

/-- Reads the items of a block sequence up to its end. -/
def blockItems : Nat → Nat → ReadM (List Node)
  | 0, context => do fail .noItemMark context (← peek)
  | fuel + 1, context => do
    let token ← peek
    match token.kind with
    | .item =>
      skip
      let kind := (← peek).kind
      let item ←
        if kind = .item || kind = .blockEnd then pure (.empty (token.line + 1))
        else node fuel .block
      return item :: (← blockItems fuel context)
    | .blockEnd =>
      skip
      pure []
    | _ => fail .noItemMark context token

/-- Reads items that are not indented deeper than the mapping they stand in. -/
def looseItems : Nat → ReadM (List Node)
  | 0 => do fail .noItemMark 0 (← peek)
  | fuel + 1 => do
    let token ← peek
    if token.kind = .item then
      skip
      let kind := (← peek).kind
      let item ←
        if kind = .item || endsEntry kind then pure (.empty (token.line + 1))
        else node fuel .block
      return item :: (← looseItems fuel)
    else pure []

/-- Reads the entries of a block mapping up to its end. -/
def blockEntries : Nat → Nat → ReadM (List (Node × Node))
  | 0, context => do fail .noKey context (← peek)
  | fuel + 1, context => do
    let token ← peek
    match token.kind with
    | .key =>
      skip
      let key ← blockPart fuel token.line
      let next ← peek
      let value ←
        if next.kind = .value then
          skip
          blockPart fuel next.line
        else pure (.empty (next.line + 1))
      return (key, value) :: (← blockEntries fuel context)
    | .blockEnd =>
      skip
      pure []
    | _ => fail .noKey context token

/-- Reads the key or the value of an entry, after its mark on a line. -/
def blockPart : Nat → Nat → ReadM Node
  | 0, context => do fail .noKey context (← peek)
  | fuel + 1, line => do
    if endsEntry (← peek).kind then pure (.empty (line + 1)) else node fuel .entry

/-- Reads the items of a flow sequence up to its end. -/
def flowItems : Nat → Nat → Bool → ReadM (List Node)
  | 0, context, _ => do fail .noFlowItemEnd context (← peek)
  | fuel + 1, context, isFirst => do
    if ← skipIf .flowSequenceEnd then pure []
    else if !isFirst && !(← skipIf .comma) then fail .noFlowItemEnd context (← peek)
    else
      let token ← peek
      match token.kind with
      | .flowSequenceEnd =>
        skip
        pure []
      | .key =>
        skip
        let next ← peek
        let key ←
          if next.kind = .value || next.kind = .comma || next.kind = .flowSequenceEnd then
            skip
            pure (.empty (next.line + 1))
          else node fuel .flow
        let value ← flowValue fuel .flowSequenceEnd
        let item := Node.mapping (token.line + 1) .mapping [(key, value)]
        return item :: (← flowItems fuel context false)
      | _ =>
        let item ← node fuel .flow
        return item :: (← flowItems fuel context false)

/-- Reads the entries of a flow mapping up to its end. -/
def flowEntries : Nat → Nat → Bool → ReadM (List (Node × Node))
  | 0, context, _ => do fail .noFlowEntryEnd context (← peek)
  | fuel + 1, context, isFirst => do
    if ← skipIf .flowMappingEnd then pure []
    else if !isFirst && !(← skipIf .comma) then fail .noFlowEntryEnd context (← peek)
    else
      match (← peek).kind with
      | .flowMappingEnd =>
        skip
        pure []
      | .key =>
        skip
        let next ← peek
        let key ←
          if next.kind = .value || next.kind = .comma || next.kind = .flowMappingEnd then
            pure (.empty (next.line + 1))
          else node fuel .flow
        let value ← flowValue fuel .flowMappingEnd
        return (key, value) :: (← flowEntries fuel context false)
      | _ =>
        let key ← node fuel .flow
        let value := Node.empty ((← peek).line + 1)
        return (key, value) :: (← flowEntries fuel context false)

/-- Reads the value of an entry in a flow collection with a given end. It may be missing. -/
def flowValue : Nat → TokenKind → ReadM Node
  | 0, _ => do fail .noNode 0 (← peek)
  | fuel + 1, close => do
    let isGiven ← skipIf .value
    let next ← peek
    if isGiven && next.kind ≠ .comma && next.kind ≠ close then node fuel .flow
    else pure (.empty (next.line + 1))

end

/-! ## Documents -/

/-- The handles that every document knows. -/
def defaultHandles : List (Text × Text) :=
  [("!", "!"), ("!!", Tag.standardAddress)]

def directives : Nat → Bool → ReadM Unit
  | 0, _ => pure ()
  | fuel + 1, hasVersion => do
    let token ← peek
    match token.kind with
    | .version major minor =>
      if hasVersion then fail .duplicateVersion 0 token
      else if major ≠ 1 || minor ≠ 1 then fail .wrongVersion 0 token
      else
        skip
        directives fuel true
    | .tagHandle handle address =>
      if ((← get).handles.lookup handle).isSome then fail .duplicateTag 0 token
      else
        skip
        modify fun reading => { reading with handles := (handle, address) :: reading.handles }
        directives fuel hasVersion
    | _ => pure ()

/-- Adds the handles that every document knows to those that it declares. -/
def addDefaultHandles : ReadM Unit :=
  modify fun reading => { reading with handles := reading.handles ++ defaultHandles }

/-- Whether a token stands between documents. -/
def isBetween : TokenKind → Bool
  | .version _ _ | .tagHandle _ _ | .documentStart | .documentEnd | .finish => true
  | _ => false

/-- Reads the root of the first document; nothing if there is none. -/
def root? (fuel : Nat) : ReadM (Option Node) := do
  let token ← peek
  match token.kind with
  | .finish => pure none
  | .version _ _ | .tagHandle _ _ | .documentStart =>
    directives fuel false
    addDefaultHandles
    let start ← peek
    if start.kind ≠ .documentStart then fail .noDocumentStart 0 start
    else
      skip
      let next ← peek
      if isBetween next.kind then pure (some (.empty (next.line + 1)))
      else some <$> node fuel .block
  | _ =>
    addDefaultHandles
    some <$> node fuel .block

/-- Reads the first document of a text; nothing if there is none. -/
def Document.read? (text : Text) : Except Error (Option Document) := do
  let runes ← characters text
  let tokens := Tokens.ofCharacters runes
  let fuel := 4 * tokens.list.length + 16
  let reading : ReadM (Option Node) := do
    let root ← root? fuel
    let _ ← peek
    pure root
  let (root, state) ← reading.run { tokens }
  pure (root.map fun root => { root, named := state.named, size := tokens.list.length + 1 })

end Loxley.Yaml
