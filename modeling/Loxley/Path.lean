import Loxley.Text

/-!
# Paths

Slash-separated paths, tidied without looking at any file.
-/

set_option autoImplicit false

namespace Loxley.Path

def slash : UInt8 := 47

/-- The name of the directory in which a path starts. -/
def here : Text := "."

/-- The name of the directory above. -/
def above : Text := ".."

/-- Whether a path starts at the root. -/
def isRooted (path : Text) : Bool :=
  path.head? == some slash

/--
Adds a segment to tidied segments, latest first. A step up takes back the segment before it; at the
root it has no effect, and at the start of a relative path it stays.
-/
def addSegment (rooted : Bool) (segments : List Text) (segment : Text) : List Text :=
  if segment.isEmpty || segment == here then segments
  else if segment == above then
    match segments with
    | [] => if rooted then [] else [above]
    | last :: others => if last == above then above :: segments else others
  else segment :: segments

/-- The shortest path that leads to the same place. -/
def tidy (path : Text) : Text :=
  let rooted := isRooted path
  let segments := (Text.splitOn slash path).foldl (addSegment rooted) []
  let joined := Text.join [slash] segments.reverse
  if rooted then slash :: joined
  else if joined.isEmpty then here
  else joined

/-- The tidied path that leads on from a directory; an empty rest is the directory itself. -/
def join (directory rest : Text) : Text :=
  tidy (if rest.isEmpty then directory else directory ++ slash :: rest)

end Loxley.Path
