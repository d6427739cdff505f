import Loxley.Text

/-!
# Internal faults

Conditions that stop the interpreter itself instead of being reported as errors of the program that
it runs.
-/

set_option autoImplicit false

namespace Loxley

/-- Why the interpreter itself had to stop. -/
inductive Fault where
  /-- A numeral in the source is too large for a number. -/
  | numeralTooLarge (numeral : Text)
  /-- A token stream does not end with an end marker. -/
  | noEndMarker
  /-- Fewer scopes enclose a use of a name than its distance says. -/
  | chainTooShort (distance : Nat)
  /-- The host applied something other than a function, or a function to too few arguments. -/
  | badApplication
  /-- Something of the host's was to be shown as a value. -/
  | foreignValue
  /-- Two things of the host's were compared that cannot be. -/
  | incomparable (typeName : Text)
deriving DecidableEq

namespace Fault

def message : Fault → Text
  | numeralTooLarge numeral =>
    ("lexer produced unparsable number: strconv.ParseFloat: parsing \"" : Text) ++ numeral ++
      ("\": value out of range" : Text)
  | noEndMarker => "token stream must end with EOF"
  | chainTooShort distance =>
    ("environment chain shorter than resolved distance " : Text) ++ Text.ofNat distance
  | badApplication => "host applied a value to unsuitable arguments"
  | foreignValue => "not a runtime value"
  | incomparable typeName =>
    ("runtime error: comparing uncomparable type " : Text) ++ typeName

end Fault

end Loxley
