import Loxley.Text.Rune

/-!
# Options of commands

Single-letter options may be written together, and a value may follow its letter at once or as the next
argument. Options end at the first operand or at a double dash.
-/

set_option autoImplicit false

namespace Loxley

/-- The options that commands know. -/
inductive Flag where
  | verbose
  | expression
  /-- Takes the path of a settings file as its value. -/
  | settings
deriving DecidableEq, Repr

/-- The code point of an option's letter. -/
def Flag.letter : Flag → Nat
  | verbose => 118
  | expression => 101
  | settings => 99

/-- What the arguments of a command ask for. -/
structure Options where
  verbose : Bool := false
  expression : Bool := false
  /-- The path of a settings file, empty if none is given. -/
  settingsPath : Text := []
  operands : List Text := []
deriving DecidableEq

namespace Options

/-- Why arguments are not understood. -/
inductive OptionError where
  | unknown (letter : Nat)
  | missingValue (letter : Nat)
deriving DecidableEq

def OptionError.message : OptionError → Text
  | unknown letter => ("lox: unknown option -" : Text) ++ Rune.encode letter
  | missingValue letter => ("lox: expected argument for -" : Text) ++ Rune.encode letter

/-- What a group of letters asks for. -/
inductive Group where
  | complete (options : Options)
  /-- The value of the last letter is the next argument. -/
  | wantsValue (options : Options)
  | failed (problem : OptionError)

/-- Reads the letters of a group. Whatever follows a letter that takes a value is the value. -/
def group (allowed : List Flag) (options : Options) : List Rune → Group
  | [] => .complete options
  | rune :: rest =>
    match allowed.find? (·.letter == rune.code) with
    | none => .failed (.unknown rune.code)
    | some .verbose => group allowed { options with verbose := true } rest
    | some .expression => group allowed { options with expression := true } rest
    | some .settings =>
      if rest.isEmpty then .wantsValue options
      else .complete { options with settingsPath := rest.flatMap (Rune.encode ·.code) }

/-- Whether an argument is a group of options. A single dash is not. -/
def isGroup : Text → Bool
  | 45 :: _ :: _ => true
  | _ => false

/-- Reads the arguments of a command after the options read so far. -/
def parse (allowed : List Flag) (options : Options) : List Text → Except OptionError Options
  | [] => .ok { options with operands := [] }
  | argument :: rest =>
    if argument = ("--" : Text) then .ok { options with operands := rest }
    else if !isGroup argument then .ok { options with operands := argument :: rest }
    else
      match group allowed options (Rune.ofText (argument.drop 1)) with
      | .failed problem => .error problem
      | .complete options => parse allowed options rest
      | .wantsValue options =>
        match rest with
        | [] => .error (.missingValue Flag.settings.letter)
        | value :: others => parse allowed { options with settingsPath := value } others

end Options

end Loxley
