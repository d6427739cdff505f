import Loxley.Number.Decimal
import Loxley.Text.Base64
import Loxley.Yaml.Problem
import Loxley.Yaml.Timestamp

/-!
# The values of YAML scalars

What the text of a scalar stands for. A plain scalar tells by its form; a tag asks for a certain kind of
value.
-/

set_option autoImplicit false

namespace Loxley.Yaml

/-! ## Tags -/

/-- The type of a node. -/
inductive Tag where
  | text
  | bool
  | int
  | float
  | null
  | timestamp
  | binary
  | merge
  | sequence
  | mapping
  | other (name : Text)
deriving DecidableEq

namespace Tag

/-- The known tags with their names. -/
def known : List (Text × Tag) :=
  [("!!str", text), ("!!bool", bool), ("!!int", int), ("!!float", float), ("!!null", null),
    ("!!timestamp", timestamp), ("!!binary", binary), ("!!merge", merge), ("!!seq", sequence),
    ("!!map", mapping)]

/-- The address that two marks stand for. -/
def standardAddress : Text := "tag:yaml.org,2002:"

/-- The tag of a name, which may be written with the standard address. -/
def ofText (name : Text) : Tag :=
  let short :=
    match Text.strip? standardAddress name with
    | some rest => ("!!" : Text) ++ rest
    | none => name
  (known.lookup short).getD (other short)

def name : Tag → Text
  | text => "!!str"
  | bool => "!!bool"
  | int => "!!int"
  | float => "!!float"
  | null => "!!null"
  | timestamp => "!!timestamp"
  | binary => "!!binary"
  | merge => "!!merge"
  | sequence => "!!seq"
  | mapping => "!!map"
  | other name => name

end Tag

/-! ## Numbers -/

/-- The value of a digit in bases up to sixteen. -/
def digit? (byte : UInt8) : Option Nat :=
  if 48 ≤ byte && byte ≤ 57 then some (byte.toNat - 48)
  else if 97 ≤ byte && byte ≤ 102 then some (byte.toNat - 87)
  else if 65 ≤ byte && byte ≤ 70 then some (byte.toNat - 55)
  else none

/-- The number that digits denote in a base; there must be at least one. -/
def natural? (base : Nat) (digits : Text) : Option Nat :=
  if digits.isEmpty then none
  else digits.foldlM
    (fun total byte =>
      match digit? byte with
      | some digit => if digit < base then some (base * total + digit) else none
      | none => none)
    0

/-- The number of an unsigned numeral; its base is told by how it starts. -/
def magnitude? : Text → Option Nat
  | 48 :: mark :: digits =>
    if mark == 120 || mark == 88 then natural? 16 digits
    else if mark == 98 || mark == 66 then natural? 2 digits
    else if mark == 111 || mark == 79 then natural? 8 digits
    else natural? 8 (mark :: digits)
  | digits => natural? 10 digits

/-- The sign of a numeral and what follows it. -/
def splitSign : Text → Option Bool × Text
  | 43 :: rest => (some false, rest)
  | 45 :: rest => (some true, rest)
  | rest => (none, rest)

/-- An integer of 64 bits, with a sign or without. -/
def integer? (text : Text) : Option Int :=
  match splitSign text with
  | (sign, rest) =>
    match magnitude? rest with
    | none => none
    | some size =>
      match sign with
      | some true => if size ≤ Nat.pow 2 63 then some (-size) else none
      | some false => if size < Nat.pow 2 63 then some size else none
      | none => if size < Nat.pow 2 64 then some size else none

/-- The exponent part of a numeral, after its mark. -/
def exponent? (text : Text) : Option Int :=
  match splitSign text with
  | (sign, digits) =>
    match natural? 10 digits with
    | none => none
    | some size => some (if sign == some true then -size else size)

/-- The digits of a numeral without the zeros at its start. -/
def significant (digits : Text) : Text :=
  digits.dropWhile (· == 48)

/-- A number in decimal notation, with an optional fraction and an optional exponent. -/
def float? (text : Text) : Option Float :=
  match splitSign text with
  | (sign, rest) =>
    let whole := rest.takeWhile Text.isDigit
    let afterWhole := rest.dropWhile Text.isDigit
    let (fraction, tail) :=
      match afterWhole with
      | 46 :: more => (more.takeWhile Text.isDigit, more.dropWhile Text.isDigit)
      | _ => ([], afterWhole)
    let exponent :=
      match tail with
      | [] => some 0
      | mark :: digits => if mark == 101 || mark == 69 then exponent? digits else none
    match exponent with
    | none => none
    | some power =>
      if whole.isEmpty && fraction.isEmpty then none
      else
        let digits := significant (whole ++ fraction)
        let scaled := power - fraction.length
        let order := scaled + digits.length
        let size :=
          if digits.isEmpty then some 0.0
          else if 310 < order then none
          else if order < -330 then some 0.0
          else Decimal.toFloat? { coefficient := Text.value digits, exponent := scaled }
        size.map fun size => if sign == some true then -size else size

/-- Whether every underscore stands between two digits, given whether a digit comes before. -/
def separatesDigits (afterDigit : Bool) : Text → Bool
  | [] => true
  | byte :: rest =>
    if byte == 95 then afterDigit && rest.head?.any Text.isDigit && separatesDigits false rest
    else separatesDigits (Text.isDigit byte) rest

/-- An integer in binary or octal notation with its sign after the mark for the base. -/
def innerSigned? : Text → Option Int
  | 48 :: mark :: sign :: digits =>
    let base := if mark == 98 then some 2 else if mark == 111 then some 8 else none
    match base.bind (natural? · digits) with
    | none => none
    | some size =>
      if sign == 45 && size ≤ Nat.pow 2 63 then some (-size)
      else if sign == 43 && size < Nat.pow 2 63 then some size
      else none
  | _ => none

/-! ## Values -/

/-- What a scalar stands for. -/
inductive Value where
  | null
  | bool (value : Bool)
  | int (value : Int)
  | float (value : Float)
  | timestamp
  | text (text : Text)

namespace Value

def tag : Value → Tag
  | null => .null
  | bool _ => .bool
  | int _ => .int
  | float _ => .float
  | timestamp => .timestamp
  | text _ => .text

/-- The values of some words. -/
def words : List (Text × Value) :=
  [("", null), ("~", null), ("null", null), ("Null", null), ("NULL", null),
    ("true", bool true), ("True", bool true), ("TRUE", bool true),
    ("false", bool false), ("False", bool false), ("FALSE", bool false),
    (".nan", float (0.0 / 0.0)), (".NaN", float (0.0 / 0.0)), (".NAN", float (0.0 / 0.0)),
    (".inf", float (1.0 / 0.0)), (".Inf", float (1.0 / 0.0)), (".INF", float (1.0 / 0.0)),
    ("+.inf", float (1.0 / 0.0)), ("+.Inf", float (1.0 / 0.0)), ("+.INF", float (1.0 / 0.0)),
    ("-.inf", float (-1.0 / 0.0)), ("-.Inf", float (-1.0 / 0.0)),
    ("-.INF", float (-1.0 / 0.0))]

/-- The number that a text denotes. Underscores between its digits are left out. -/
def number? (text : Text) : Option Value :=
  let bare := text.filter (· != 95)
  match text with
  | [] => none
  | 46 :: _ => if separatesDigits false text then (float? bare).map float else none
  | first :: _ =>
    if Text.isDigit first || first == 43 || first == 45 then
      match integer? bare with
      | some number => some (int number)
      | none =>
        match float? bare with
        | some number => some (float number)
        | none => (innerSigned? bare).map int
    else none

/-- What a text stands for by its form, with or without regard to timestamps. -/
def ofForm (timestamps : Bool) (source : Text) : Value :=
  match words.lookup source with
  | some value => value
  | none =>
    if timestamps && isTimestamp source then timestamp
    else (number? source).getD (text source)

/-- What a plain scalar without a tag stands for. -/
def ofPlain (source : Text) : Value :=
  ofForm true source

/-- An integer as a number with a fraction, unless it has no sign and needs all its bits. -/
def toFloat? : Value → Option Value
  | int number => if number < Nat.pow 2 63 then some (float (Float.ofInt number)) else none
  | _ => none

/-- A value of the kind that a tag asks for. -/
def ofForm? (tag : Tag) (source : Text) : Except Problem Value :=
  let found := ofForm (tag = .timestamp) source
  if found.tag = tag then .ok found
  else
    match (if tag = .float then found.toFloat? else none) with
    | some value => .ok value
    | none => .error (.undecodable found.tag.name source tag.name)

/-- What a scalar with a tag stands for. -/
def ofTagged (tag : Tag) (source : Text) : Except Problem Value :=
  match tag with
  | .text => .ok (text source)
  | .bool | .int | .float | .null | .timestamp => ofForm? tag source
  | .binary =>
    match Base64.decode? source with
    | some bytes => .ok (text bytes)
    | none => .error .badBinary
  | _ => .ok (text source)

end Value

end Loxley.Yaml
