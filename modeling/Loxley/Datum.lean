import Loxley.Text

/-!
# Symbolic data

The s-expressions in which syntax trees are shown and patterns for them are written: atoms of four
types, and lists of data. This module prints them.
-/

set_option autoImplicit false

namespace Loxley

/-- An atom, or a list of data. -/
inductive Datum where
  | symbol (text : Text)
  | string (text : Text)
  | number (text : Text)
  | ellipsis
  | list (items : List Datum)
deriving BEq

namespace Datum

/-- The escaped form of one byte of a string. -/
def escape (byte : UInt8) : Text :=
  if byte == 92 then [92, 92]
  else if byte == 34 then [92, 34]
  else if byte == 10 then [92, 110]
  else [byte]

/-- A string between quotes, with backslashes, quotes and newlines escaped. -/
def quoted (text : Text) : Text :=
  34 :: text.flatMap escape ++ [34]

mutual

def render : Datum → Text
  | symbol text => text
  | string text => quoted text
  | number text => text
  | ellipsis => "..."
  | list items => 40 :: renderItems items ++ [41]

/-- The texts of data with single spaces between them. -/
def renderItems : List Datum → Text
  | [] => []
  | [last] => render last
  | first :: second :: rest => render first ++ 32 :: renderItems (second :: rest)

end

/-- A list with a leading symbol. -/
def headed (head : String) (items : List Datum) : Datum :=
  list (symbol (Text.ofString head) :: items)

/-- Whether a datum is not a list. -/
def isAtom : Datum → Bool
  | list _ => false
  | _ => true

/-- Whether a datum is the symbol that matches anything in a pattern. -/
def isWildcard : Datum → Bool
  | symbol text => text == [95]
  | _ => false

def typeName : Datum → Text
  | symbol _ => "symbol"
  | string _ => "string"
  | number _ => "number"
  | ellipsis => "ellipsis"
  | list _ => "list"

end Datum

end Loxley
