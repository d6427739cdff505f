import Loxley.Yaml.Value

/-!
# The nodes of a YAML document

A document is a tree of nodes. A node may have a name, by which others refer to it; such nodes are
kept in a table, so that a document may also refer to a node from inside of it.
-/

set_option autoImplicit false

namespace Loxley.Yaml

/-- A node of a document, with the line on which it starts, counted from one. -/
inductive Node where
  | scalar (line : Nat) (tag : Tag) (text : Text)
  | sequence (line : Nat) (tag : Tag) (items : List Node)
  | mapping (line : Nat) (tag : Tag) (entries : List (Node × Node))
  /-- A reference by name to a node of the table. -/
  | reference (line : Nat) (name : Text) (target : Nat)

namespace Node

def line : Node → Nat
  | scalar line _ _ | sequence line _ _ | mapping line _ _ | reference line _ _ => line

def empty (line : Nat) : Node :=
  scalar line .null []

/-- The tag of a plain scalar that does not have one. -/
def plainTag (text : Text) : Tag :=
  if text = ("<<" : Text) then .merge else (Value.ofPlain text).tag

/-- Whether a node is the key under which the entries of other mappings are taken over. -/
def isMerge : Node → Bool
  | scalar _ .merge text => text = ("<<" : Text)
  | _ => false

/--
Whether two nodes count as the same key. Scalars do if their texts agree, aliases if their names do, and
collections of one kind always.
-/
def sameKey : Node → Node → Bool
  | scalar _ _ left, scalar _ _ right => left = right
  | reference _ left _, reference _ right _ => left = right
  | sequence _ _ _, sequence _ _ _ => true
  | mapping _ _ _, mapping _ _ _ => true
  | _, _ => false

/-- The text or the name of a node; collections have none. -/
def source : Node → Text
  | scalar _ _ text => text
  | reference _ name _ => name
  | sequence _ _ _ | mapping _ _ _ => []

end Node

/-- A document: its root and the nodes that have names. -/
structure Document where
  root : Node
  named : Array Node := #[]
  /-- A bound for the number of nodes. -/
  size : Nat

/-- A bound for the depth of nesting that references can lead to without coming back to a node. -/
def Document.depthLimit (document : Document) : Nat :=
  (document.named.size + 1) * (2 * document.size + 2)

/-- The node for which a node stands: itself, unless it is a reference. -/
def Document.target (document : Document) : Node → Node
  | .reference line _ index => document.named.getD index (.empty line)
  | node => node

end Loxley.Yaml
