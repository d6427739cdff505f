import Loxley.Path

/-!
# Files

What can go wrong with a file, and a directory of files held in memory.
-/

set_option autoImplicit false

namespace Loxley

/-- Why a file cannot be read or written. -/
inductive FileProblem where
  | notFound
  | isDirectory
  | notDirectory
  | denied
  | invalidName
  | nameTooLong
  /-- Any other reason, in the words of the system. -/
  | other (reason : Text)
deriving DecidableEq

namespace FileProblem

def reason : FileProblem → Text
  | notFound => "no such file or directory"
  | isDirectory => "is a directory"
  | notDirectory => "not a directory"
  | denied => "permission denied"
  | invalidName => "invalid argument"
  | nameTooLong => "file name too long"
  | other reason => reason

/-- The report of a failed attempt to read a file. A directory can be opened, but not read. -/
def report (problem : FileProblem) (path : Text) : Text :=
  (match problem with
    | isDirectory => ("read " : Text)
    | _ => ("open " : Text)) ++ path ++ (": " : Text) ++ problem.reason

end FileProblem

/-- What a path can lead to. -/
inductive FileEntry where
  | file (content : Text)
  | directory

/-- A directory with everything below it. Each entry stands under the segments that lead to it. -/
structure FileTree where
  entries : List (List Text × FileEntry) := []

namespace FileTree

/-- The longest name that a file can have. -/
def nameLimit : Nat := 255

/-- The entry at a list of segments. The top is always a directory. -/
def entry? (tree : FileTree) (segments : List Text) : Option FileEntry :=
  if segments.isEmpty then some .directory else tree.entries.lookup segments

/-- Replaces or adds an entry. -/
def put (tree : FileTree) (segments : List Text) (entry : FileEntry) : FileTree :=
  { entries := (segments, entry) :: tree.entries.filter (·.1 != segments) }

/-- Adds the directories that lead on from a place along some segments. -/
def makeDirectories (tree : FileTree) (place : List Text) : List Text → FileTree
  | [] => tree
  | segment :: rest =>
    let next := place ++ [segment]
    match tree.entry? next with
    | some _ => makeDirectories tree next rest
    | none => makeDirectories (tree.put next .directory) next rest

/-- Adds a file with the directories that lead to it, or a directory if the path ends in a slash. -/
def add (tree : FileTree) (path content : Text) : FileTree :=
  let segments :=
    (Text.splitOn Path.slash path).filter fun segment => !segment.isEmpty && segment != Path.here
  if path.getLast? == some Path.slash then tree.makeDirectories [] segments
  else (tree.makeDirectories [] segments.dropLast).put segments (.file content)

/--
Follows segments from a directory, given with its own segments, and finds the last place that exists.
Gives the segments of the place and what is there, or nothing if only its directory exists.
-/
def walk (tree : FileTree) : List Text → List Text →
    Except FileProblem (List Text × Option FileEntry)
  | place, [] => .ok (place, some .directory)
  | place, segment :: rest =>
    if segment.isEmpty || segment == Path.here then walk tree place rest
    else if segment == Path.above then
      if place.isEmpty then .error .notFound else walk tree place.dropLast rest
    else if nameLimit < segment.length then .error .nameTooLong
    else
      match tree.entry? (place ++ [segment]) with
      | some .directory => walk tree (place ++ [segment]) rest
      | some (.file content) =>
        if rest.isEmpty then .ok (place ++ [segment], some (.file content))
        else .error .notDirectory
      | none => if rest.isEmpty then .ok (place ++ [segment], none) else .error .notFound

/-- Finds the place of a relative path. -/
def locate (tree : FileTree) (path : Text) : Except FileProblem (List Text × Option FileEntry) :=
  if path.contains 0 then .error .invalidName
  else if path.isEmpty || Path.isRooted path then .error .notFound
  else tree.walk [] (Text.splitOn Path.slash path)

def read (tree : FileTree) (path : Text) : Except FileProblem Text :=
  match tree.locate path with
  | .error problem => .error problem
  | .ok (_, none) => .error .notFound
  | .ok (_, some .directory) => .error .isDirectory
  | .ok (_, some (.file content)) => .ok content

/-- Writes a file, if its directory exists; otherwise nothing changes. -/
def write (tree : FileTree) (path content : Text) : FileTree :=
  match tree.locate path with
  | .ok (_, some .directory) | .error _ => tree
  | .ok (segments, _) => tree.put segments (.file content)

/-- The paths and contents of the files that are not in an earlier tree with the same content. -/
def changes (earlier later : FileTree) : List (Text × Text) :=
  later.entries.filterMap fun (segments, entry) =>
    match entry, earlier.entry? segments with
    | .directory, _ => none
    | .file content, some (.file old) =>
      if content = old then none else some (Text.join [Path.slash] segments, content)
    | .file content, _ => some (Text.join [Path.slash] segments, content)

end FileTree

end Loxley
