import Loxley.Text

/-!
# Timestamps

The texts that denote a date, or a date and a time of day. Only whether a text is one matters.
-/

set_option autoImplicit false

namespace Loxley.Yaml.Timestamp

/-- A number of one or two digits, and what follows it. -/
def number? : Text → Option (Nat × Text)
  | [] => none
  | first :: rest =>
    if !Text.isDigit first then none
    else
      match rest with
      | [] => some (Text.value [first], [])
      | second :: others =>
        if Text.isDigit second then some (Text.value [first, second], others)
        else some (Text.value [first], rest)

def after? (byte : UInt8) : Text → Option Text
  | [] => none
  | first :: rest => if first == byte then some rest else none

def isLeap (year : Nat) : Bool :=
  year % 4 == 0 && (year % 100 != 0 || year % 400 == 0)

/-- The number of days of a month, counted from one. -/
def daysIn (year month : Nat) : Nat :=
  if month = 2 then if isLeap year then 29 else 28
  else if month = 4 || month = 6 || month = 9 || month = 11 then 30
  else 31

/-- What follows a date: a year of four digits, a month and a day. -/
def afterDate? (text : Text) : Option Text := do
  let digits := text.takeWhile Text.isDigit
  if digits.length ≠ 4 then none
  else
    let year := Text.value digits
    let rest ← after? 45 (text.drop 4)
    let (month, rest) ← number? rest
    let rest ← after? 45 rest
    let (day, rest) ← number? rest
    if 1 ≤ month && month ≤ 12 && 1 ≤ day && day ≤ daysIn year month then some rest else none

/-- What follows a fraction of a second; there need not be one. -/
def afterFraction : Text → Text
  | mark :: digit :: rest =>
    if (mark == 46 || mark == 44) && Text.isDigit digit then rest.dropWhile Text.isDigit
    else mark :: digit :: rest
  | rest => rest

def afterTime? (text : Text) : Option Text := do
  let (hour, rest) ← number? text
  let rest ← after? 58 rest
  let (minute, rest) ← number? rest
  let rest ← after? 58 rest
  let (second, rest) ← number? rest
  if hour < 24 && minute < 60 && second < 60 then some (afterFraction rest) else none

/-- A zone: the letter for none, or a signed offset with two digits for hours and for minutes. -/
def isZone : Text → Bool
  | [90] => true
  | [sign, hour, hour', 58, minute, minute'] =>
    (sign == 43 || sign == 45) && [hour, hour', minute, minute'].all Text.isDigit &&
      Text.value [hour, hour'] ≤ 24 && Text.value [minute, minute'] ≤ 60
  | _ => false

end Loxley.Yaml.Timestamp

namespace Loxley.Yaml

/-- Whether a text is a date, alone or with a time of day in the same zone or another. -/
def isTimestamp (text : Text) : Bool :=
  match Timestamp.afterDate? text with
  | none => false
  | some [] => true
  | some (mark :: rest) =>
    if mark == 84 || mark == 116 then (Timestamp.afterTime? rest).any Timestamp.isZone
    else if mark == 32 then (Timestamp.afterTime? (rest.dropWhile (· == 32))).any (·.isEmpty)
    else false

end Loxley.Yaml
