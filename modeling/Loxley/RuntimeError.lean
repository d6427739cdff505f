import Loxley.Token

/-!
# Errors of running programs

What can go wrong while a program runs. The token of an error says where.
-/

set_option autoImplicit false

namespace Loxley

/-- The causes of errors at run time. -/
inductive Mishap where
  | operandNotNumber
  | operandsNotNumbers
  | operandsNotAddable
  | divisionByZero
  | undefinedVariable (name : Text)
  | notCallable
  | wrongArity (expected : Int) (given : Nat)
  | callsTooDeep
  /-- A host function gave back something that is no value. -/
  | unsupportedResult (name : Text) (typeName : Text)
  /-- A host function failed in its own words. -/
  | host (kind : Text) (message : Text)
deriving DecidableEq

namespace Mishap

/-- The class of errors that a cause belongs to. -/
def kind : Mishap → Text
  | operandNotNumber | operandsNotNumbers | operandsNotAddable => "operand type mismatch"
  | divisionByZero => "division by zero"
  | undefinedVariable _ => "undefined variable"
  | notCallable => "value is not callable"
  | wrongArity _ _ => "wrong number of arguments"
  | callsTooDeep => "call depth exceeded"
  | unsupportedResult _ _ => "native returned a non-Lox value"
  | host kind _ => kind

def message : Mishap → Text
  | operandNotNumber => "Operand must be a number."
  | operandsNotNumbers => "Operands must be numbers."
  | operandsNotAddable => "Operands must be two numbers or two strings."
  | divisionByZero => "Division by zero."
  | undefinedVariable name => ("Undefined variable '" : Text) ++ name ++ ("'." : Text)
  | notCallable => "Can only call functions and classes."
  | wrongArity expected given =>
    ("Expected " : Text) ++ Text.ofInt expected ++ (" arguments but got " : Text) ++
      Text.ofNat given ++ ("." : Text)
  | callsTooDeep => "Stack overflow."
  | unsupportedResult name typeName =>
    ("Native function '" : Text) ++ name ++ ("' returned a value of unsupported type " : Text) ++
      typeName ++ ("." : Text)
  | host _ message => message

end Mishap

/-- An error with the token where it arose. -/
structure RuntimeError where
  token : Token
  mishap : Mishap
deriving DecidableEq

namespace RuntimeError

/-- The report of an error: its message and its line. -/
def text (error : RuntimeError) : Text :=
  error.mishap.message ++ ("\n[line " : Text) ++ Text.ofInt error.token.line ++ ("]" : Text)

end RuntimeError

end Loxley
