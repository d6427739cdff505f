import Loxley.Program

/-!
# Values

What expressions evaluate to. Functions are told apart by identity: evaluating the same declaration
twice makes two different functions.
-/

set_option autoImplicit false

namespace Loxley

/-- The place of an environment in the heap. -/
abbrev EnvironmentId := Nat

/-- A declared function together with the environment in which its declaration was executed. -/
structure Closure where
  identity : Nat
  name : Token
  parameters : List Token
  body : List (Stmt (Option Nat))
  scope : EnvironmentId

/-- A reference to a function of the host. -/
structure NativeRef where
  /-- The place of the function in the host's table. -/
  identity : Nat
  arity : Int
deriving DecidableEq

/-- A thing of the host that is none of the language's own values. -/
inductive Foreign where
  /-- An integer of one of the host's types for them. -/
  | integer (typeName : Text) (value : Int)
  | single (value : Float32)
  /-- Any other thing. Things of its type are told apart by their content, if at all. -/
  | other (typeName : Text) (content : Option Nat)

namespace Foreign

/-- Things of different types are different. -/
def same : Foreign → Foreign → Bool
  | integer type left, integer otherType right => type == otherType && left == right
  | single left, single right => left == right
  | other type left, other otherType right => type == otherType && left == right
  | _, _ => false

/-- The type of two things that cannot be told apart, and must not be compared. -/
def clash? : Foreign → Foreign → Option Text
  | other type left, other otherType right =>
    if type = otherType ∧ (left = none ∨ right = none) then some type else none
  | _, _ => none

end Foreign

/-- Values at run time. -/
inductive Value where
  | nil
  | bool (value : Bool)
  | number (value : Float)
  | string (value : Text)
  | function (closure : Closure)
  | native (reference : NativeRef)
  /-- What the host may hand to a function, though it is no value of the language. -/
  | foreign (thing : Foreign)

namespace Value

def ofLiteral : Literal → Value
  | .nil => nil
  | .bool value => bool value
  | .number value => number value
  | .string value => string value

/-- Everything except nil and false counts as true. -/
def isTruthy : Value → Bool
  | nil => false
  | bool value => value
  | _ => true

/-- Two numbers are the same if both are NaN or their bits agree, so zero differs from minus zero. -/
def sameNumber (left right : Float) : Bool :=
  (left.isNaN && right.isNaN) || (!left.isNaN && !right.isNaN && left.toBits == right.toBits)

/-- Equality of values: values of different types are different. -/
def same : Value → Value → Bool
  | nil, nil => true
  | bool left, bool right => left == right
  | number left, number right => sameNumber left right
  | string left, string right => left == right
  | function left, function right => left.identity == right.identity
  | native left, native right => left.identity == right.identity
  | foreign left, foreign right => left.same right
  | _, _ => false

/-- The text of a value as `print` shows it. Things of the host have none. -/
def text? : Value → Option Text
  | nil => some "nil"
  | bool value => some (Literal.boolText value)
  | number value => some (Number.display value)
  | string value => some value
  | function closure => some (("<fn " : Text) ++ closure.name.lexeme ++ (">" : Text))
  | native _ => some "<native fn>"
  | foreign _ => none

def typeName : Value → Text
  | nil => "nil"
  | bool _ => "boolean"
  | number _ => "number"
  | string _ => "string"
  | function _ | native _ => "function"
  | foreign _ => "unknown"

/-- How many arguments a function takes; other values take none at all. -/
def arity? : Value → Option Int
  | function closure => some closure.parameters.length
  | native reference => some reference.arity
  | _ => none

end Value

end Loxley
