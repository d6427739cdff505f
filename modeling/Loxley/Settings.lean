import Loxley.FileTree
import Loxley.Text.Printable
import Loxley.Yaml.Node.Reader

/-!
# Settings

The settings of a session, which are read from a YAML file on top of the defaults. Every key and every
value that does not fit is reported; only then are the values themselves checked.
-/

set_option autoImplicit false

namespace Loxley

/-- What can be set. -/
structure Settings where
  prompt : Text := "> "
  continuationPrompt : Text := "... "
  historyFile : Text := "~/.lox_history"
  /-- Whether errors are coloured; if nothing is said, they are not. -/
  color : Option Bool := none
  verbose : Bool := false
  /-- The greatest depth of calls; zero stands for the default. -/
  maxCallDepth : Int := 0

namespace Settings

/-! ## Misfits between a document and the settings -/

inductive FieldType where
  | text
  | flag
  /-- A flag about which nothing need be said. -/
  | optionalFlag
  | count
  /-- The type of all settings together. -/
  | all
deriving DecidableEq

/-- The name of a type. What a null tag stands on is read for the optional type itself. -/
def FieldType.name (tag : Yaml.Tag) : FieldType → Text
  | text => "string"
  | flag => "bool"
  | optionalFlag => if tag = .null then "*bool" else "bool"
  | count => "int"
  | all => "main.Config"

/-- What does not fit in a document. -/
inductive Misfit where
  | wrongType (line : Nat) (tag : Yaml.Tag) (source : Text) (expected : FieldType)
  | unknownKey (line : Nat) (key : Text)
  | duplicateKey (line : Nat) (key : Text) (firstLine : Nat)
  /-- A setting that has been given under another spelling of its key. -/
  | repeatedField (line : Nat) (key : Text)

/-- The beginning of a text if it is too long to be shown. -/
def excerpt (text : Text) : Text :=
  if 10 < text.length then text.take 7 ++ ("..." : Text) else text

/-- The tag of a node, followed by its text unless the tag is that of a collection. -/
def describe (tag : Yaml.Tag) (source : Text) : Text :=
  tag.name ++
    if tag = .sequence || tag = .mapping then source
    else (" `" : Text) ++ excerpt source ++ ("`" : Text)

def Misfit.message : Misfit → Text
  | wrongType line tag source expected =>
    ("line " : Text) ++ Text.ofNat line ++ (": cannot unmarshal " : Text) ++ describe tag source ++
      (" into " : Text) ++ expected.name tag
  | unknownKey line key =>
    ("line " : Text) ++ Text.ofNat line ++ (": field " : Text) ++ key ++
      (" not found in type " : Text) ++ FieldType.all.name .mapping
  | duplicateKey line key firstLine =>
    ("line " : Text) ++ Text.ofNat line ++ (": mapping key " : Text) ++ key.quote ++
      (" already defined at line " : Text) ++ Text.ofNat firstLine
  | repeatedField line key =>
    ("line " : Text) ++ Text.ofNat line ++ (": field " : Text) ++ key ++
      (" already set in type " : Text) ++ FieldType.all.name .mapping

/-- The later entries with the same key as a node. -/
def laterDuplicates (key : Yaml.Node) (later : List (Yaml.Node × Yaml.Node)) : List Misfit :=
  later.filterMap fun entry =>
    if key.sameKey entry.1 then
      some (.duplicateKey entry.1.line entry.1.source key.line)
    else none

/-- Every pair of entries of a mapping with the same key. -/
def duplicates : List (Yaml.Node × Yaml.Node) → List Misfit
  | [] => []
  | (key, _) :: rest => laterDuplicates key rest ++ duplicates rest

/-! ## Values of settings -/

/-- What a node gives for a setting. -/
inductive Reading (α : Type) where
  | value (value : α)
  /-- A null value, which leaves the setting as it is. -/
  | absent
  | misfits (problems : List Misfit)

/-- The misfits of a collection for a setting: its own duplicate keys, or else its type. -/
def collectionMisfits (expected : FieldType) (line : Nat) (tag : Yaml.Tag)
    (entries : List (Yaml.Node × Yaml.Node)) : List Misfit :=
  match duplicates entries with
  | [] => [.wrongType line tag [] expected]
  | problems => problems

/-- Reads a scalar, possibly by reference; a collection does not fit. -/
def readScalar {α : Type} (document : Yaml.Document) (expected : FieldType) (node : Yaml.Node)
    (convert : Yaml.Value → Text → Option α) : Except Yaml.Problem (Reading α) :=
  match document.target node with
  | .scalar line tag source =>
    match Yaml.Value.ofTagged tag source with
    | .error problem => .error problem
    | .ok .null => .ok .absent
    | .ok value =>
      match convert value source with
      | some result => .ok (.value result)
      | none => .ok (.misfits [.wrongType line tag source expected])
  | .mapping line tag entries => .ok (.misfits (collectionMisfits expected line tag entries))
  | .sequence line tag _ => .ok (.misfits [.wrongType line tag [] expected])
  | .reference _ _ _ => .ok .absent

/-- The words that switch a flag on. -/
def onWords : List Text := ["y", "Y", "yes", "Yes", "YES", "on", "On", "ON"]

/-- The words that switch a flag off. -/
def offWords : List Text := ["n", "N", "no", "No", "NO", "off", "Off", "OFF"]

/-- A flag, which may also be one of a few words. -/
def toFlag (value : Yaml.Value) (_source : Text) : Option Bool :=
  match value with
  | .bool flag => some flag
  | .text text =>
    if onWords.contains text then some true
    else if offWords.contains text then some false
    else none
  | _ => none

/-- A count, for which a number loses its fraction. One that is too small is the least integer. -/
def toCount (value : Yaml.Value) (_source : Text) : Option Int :=
  match value with
  | .int number => if number < Nat.pow 2 63 then some number else none
  | .float number =>
    if number < 9223372036854775808.0 then some number.toInt64.toInt
    else if number == 9223372036854775808.0 then some (-Nat.pow 2 63)
    else none
  | _ => none

/-- A text; numbers, flags and timestamps give their own text. -/
def toText (value : Yaml.Value) (source : Text) : Option Text :=
  match value with
  | .text text => some text
  | _ => some source

/-- Nothing: no scalar gives all settings together. -/
def toNothing (_value : Yaml.Value) (_source : Text) : Option Empty :=
  none

/-! ## Settings from a document -/

/-- The keys of settings. -/
inductive Field where
  | prompt
  | continuationPrompt
  | historyFile
  | color
  | verbose
  | maxCallDepth
deriving DecidableEq

/-- The settings by their keys. -/
def Field.keys : List (Text × Field) :=
  [("prompt", prompt), ("continuation_prompt", continuationPrompt), ("history_file", historyFile),
    ("color", color), ("verbose", verbose), ("max_call_depth", maxCallDepth)]

/-- Settings while a document is read, with the misfits found so far. -/
structure Draft where
  settings : Settings := {}
  misfits : List Misfit := []

namespace Draft

def note (problems : List Misfit) (draft : Draft) : Draft :=
  { draft with misfits := draft.misfits ++ problems }

/-- Takes over what was read for one setting. -/
def accept {α : Type} (draft : Draft) (update : Settings → α → Settings) : Reading α → Draft
  | .value value => { draft with settings := update draft.settings value }
  | .absent => draft
  | .misfits problems => draft.note problems

def set (document : Yaml.Document) (draft : Draft) (node : Yaml.Node) :
    Field → Except Yaml.Problem Draft
  | .prompt =>
    (readScalar document .text node toText).map <| draft.accept fun settings prompt =>
      { settings with prompt }
  | .continuationPrompt =>
    (readScalar document .text node toText).map <| draft.accept fun settings continuationPrompt =>
      { settings with continuationPrompt }
  | .historyFile =>
    (readScalar document .text node toText).map <| draft.accept fun settings historyFile =>
      { settings with historyFile }
  | .color =>
    (readScalar document .optionalFlag node toFlag).map <| draft.accept fun settings flag =>
      { settings with color := some flag }
  | .verbose =>
    (readScalar document .flag node toFlag).map <| draft.accept fun settings verbose =>
      { settings with verbose }
  | .maxCallDepth =>
    (readScalar document .count node toCount).map <| draft.accept fun settings maxCallDepth =>
      { settings with maxCallDepth }

end Draft

/-- The keys that mappings merged into another one cannot set any more. -/
abbrev Taken := List Text

/-- The key of an entry, if it is a text by itself. -/
def textKey? (document : Yaml.Document) (key : Yaml.Node) : Option Text :=
  match document.target key with
  | .scalar _ tag source =>
    match Yaml.Value.ofTagged tag source with
    | .ok (.text text) => some text
    | _ => none
  | _ => none

/-- The state in which the entries of one mapping are read. -/
structure Entries where
  draft : Draft
  /-- The keys that are taken, if the mapping is merged into another one. -/
  taken : Option Taken
  /-- The settings that the mapping has given. -/
  given : List Field := []
  /-- What is merged into the mapping. -/
  merge : Option Yaml.Node := none

namespace Entries

/-- Reads the value of a key that is a text. -/
def assign (document : Yaml.Document) (entries : Entries) (line : Nat) (key : Text)
    (node : Yaml.Node) : Except Yaml.Problem Entries :=
  match Field.keys.lookup key with
  | none => .ok { entries with draft := entries.draft.note [.unknownKey line key] }
  | some field =>
    if entries.given.contains field then
      .ok { entries with draft := entries.draft.note [.repeatedField line key] }
    else
      match entries.draft.set document node field with
      | .error problem => .error problem
      | .ok draft => .ok { entries with draft, given := field :: entries.given }

/-- Reads one entry. One whose key is null is passed over. -/
def read (document : Yaml.Document) (entries : Entries) (entry : Yaml.Node × Yaml.Node) :
    Except Yaml.Problem Entries :=
  if entry.1.isMerge then .ok { entries with merge := some entry.2 }
  else
    match readScalar document .text entry.1 toText with
    | .error problem => .error problem
    | .ok .absent => .ok entries
    | .ok (.misfits problems) => .ok { entries with draft := entries.draft.note problems }
    | .ok (.value key) =>
      match entries.taken with
      | none => entries.assign document entry.1.line key entry.2
      | some taken =>
        if taken.contains key then .ok entries
        else
          assign document { entries with taken := some (key :: taken) } entry.1.line key entry.2

end Entries

/-- The references that are being followed, given a node that is read next. -/
def activate (active : List Nat) : Yaml.Node → Except Yaml.Problem (List Nat)
  | .reference _ name target =>
    if active.contains target then .error (.recursiveAnchor name) else .ok (target :: active)
  | _ => .ok active

/-- The nodes that a node merges into a mapping: its items, or else the node itself. -/
def merged : Yaml.Node → List Yaml.Node
  | .sequence _ _ items => items
  | node => [node]

mutual

/--
Reads the settings of a mapping, and then those of the mappings that are merged into it, which set only
what is not taken.
-/
def readMapping (document : Yaml.Document) : Nat → List Nat → Draft → Option Taken →
    List (Yaml.Node × Yaml.Node) → Except Yaml.Problem (Draft × Option Taken)
  | 0, _, draft, taken, _ => .ok (draft, taken)
  | fuel + 1, active, draft, taken, list =>
    match duplicates list with
    | [] =>
      match list.foldlM (Entries.read document) { draft, taken } with
      | .error problem => .error problem
      | .ok entries =>
        match entries.merge with
        | none => .ok (entries.draft, entries.taken)
        | some node =>
          let inner := entries.taken.getD (list.filterMap fun entry => textKey? document entry.1)
          match readMerged document fuel active entries.draft inner (merged node) with
          | .error problem => .error problem
          | .ok (draft, inner) => .ok (draft, entries.taken.map fun _ => inner)
    | problems => .ok (draft.note problems, taken)

/--
Reads the settings of mappings that are merged into another one. A reference to one that is being read
by reference is an error.
-/
def readMerged (document : Yaml.Document) : Nat → List Nat → Draft → Taken → List Yaml.Node →
    Except Yaml.Problem (Draft × Taken)
  | 0, _, draft, taken, _ => .ok (draft, taken)
  | _, _, draft, taken, [] => .ok (draft, taken)
  | fuel + 1, active, draft, taken, node :: rest =>
    match document.target node, activate active node with
    | .mapping _ _ entries, .ok inner =>
      match readMapping document fuel inner draft (some taken) entries with
      | .error problem => .error problem
      | .ok (draft, result) => readMerged document fuel active draft (result.getD taken) rest
    | .mapping _ _ _, .error problem => .error problem
    | _, _ => .error .badMerge

end

def ofDocument (document : Yaml.Document) : Except Yaml.Problem Draft :=
  match document.root with
  | .mapping _ _ entries =>
    (readMapping document document.depthLimit [] {} none entries).map (·.1)
  | node =>
    match readScalar document .all node toNothing with
    | .error problem => .error problem
    | .ok (.misfits problems) => .ok { misfits := problems }
    | .ok _ => .ok {}

/-! ## Checking and finding settings -/

/-- What is wrong with the values of settings. -/
def issues (settings : Settings) : List Text :=
  (if settings.prompt.isEmpty then [("prompt must not be empty" : Text)] else []) ++
    (if settings.continuationPrompt.isEmpty then
      [("continuation_prompt must not be empty" : Text)] else []) ++
    (if settings.maxCallDepth < 0 then
      [("max_call_depth must not be negative" : Text)] else [])

/-- Why there are no settings. -/
inductive SettingsError where
  | malformed (error : Yaml.Error)
  | misfits (problems : List Misfit)
  | invalid (issues : List Text)
  | unreadable (problem : FileProblem) (path : Text)

def SettingsError.message (problem : SettingsError) : Text :=
  ("config: " : Text) ++
    match problem with
    | malformed error => error.message
    | misfits problems =>
      ("yaml: unmarshal errors:\n" : Text) ++
        Text.join [Text.newline] (problems.map fun misfit => ("  " : Text) ++ misfit.message)
    | invalid issues => Text.join "; " issues
    | unreadable problem path => problem.report path

/-- The settings of a draft, unless something does not fit or a value is not allowed. -/
def Draft.close (draft : Draft) : Except SettingsError Settings :=
  if !draft.misfits.isEmpty then .error (.misfits draft.misfits)
  else
    match draft.settings.issues with
    | [] => .ok draft.settings
    | found => .error (.invalid found)

/-- Reads settings from the text of a YAML document; without a document they are the defaults. -/
def parse (text : Text) : Except SettingsError Settings :=
  match Yaml.Document.read? text with
  | .error problem => .error (.malformed problem)
  | .ok none => Draft.close {}
  | .ok (some document) =>
    match ofDocument document with
    | .error problem => .error (.malformed { problem })
    | .ok draft => draft.close

/-- The name of the settings file in the home directory. -/
def fileName : Text := ".loxrc.yml"

/-- Where settings are looked for. -/
inductive Place where
  /-- A file that was asked for. -/
  | explicit (path : Text)
  /-- A file that need not exist. -/
  | optional (path : Text)
  | nowhere

/--
The place of the settings: a path that is given, else one from the environment, else a file in the home
directory. An empty text counts as nothing.
-/
def place (given configured home : Text) : Place :=
  if !given.isEmpty then .explicit given
  else if !configured.isEmpty then .explicit configured
  else if !home.isEmpty then .optional (Path.join home fileName)
  else .nowhere

def Place.path? : Place → Option Text
  | explicit path | optional path => some path
  | nowhere => none

/-- The settings from a place, given what reading its file gave. -/
def ofFile (place : Place) (content : Except FileProblem Text) : Except SettingsError Settings :=
  match place with
  | .nowhere => .ok {}
  | .explicit path =>
    match content with
    | .ok text => parse text
    | .error problem => .error (.unreadable problem path)
  | .optional path =>
    match content with
    | .ok text => parse text
    | .error .notFound => .ok {}
    | .error problem => .error (.unreadable problem path)

/--
The path of the history file. A tilde for the home directory is replaced; without a home directory
there is then no history.
-/
def historyPath (home : Text) (settings : Settings) : Text :=
  match settings.historyFile with
  | 126 :: rest =>
    if rest.isEmpty || rest.head? == some Path.slash then
      if home.isEmpty then [] else Path.join home rest
    else settings.historyFile
  | path => path

end Settings

end Loxley
