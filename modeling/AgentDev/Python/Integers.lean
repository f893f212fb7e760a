import AgentDev.Python.Json

/-!
# `int` of a value

Which characters are decimal digits, and of which value, is a parameter: `unicodedata.decimal`.
-/

namespace Python

inductive IntError
  /-- `TypeError` -/
  | type
  /-- `ValueError` -/
  | value
  /-- `OverflowError` -/
  | overflow
  deriving DecidableEq

/-- The rest of a numeral: the value and the number of the digits so far, and whether a digit has to
come. -/
def digitsValue (decimal : CodePoint → Option Nat) (value count : Nat) (open? : Bool) :
    Str → Option Nat
  | [] => if open? || maxStrDigits < count then none else some value
  | c :: rest =>
    match decimal c with
    | some d => digitsValue decimal (10 * value + d) (count + 1) false rest
    | none =>
      if c = ord '_' && !open? then digitsValue decimal value count true rest else none

/-- `int(text)`: a sign, and digits with single underscores between them. -/
def intOfStr (decimal : CodePoint → Option Nat) (text : Str) : Option Int :=
  match strip text with
  | [] => none
  | c :: rest =>
    if c = ord '-' then (digitsValue decimal 0 0 true rest).map fun n => -n
    else if c = ord '+' then (digitsValue decimal 0 0 true rest).map fun n => n
    else (digitsValue decimal 0 0 true (c :: rest)).map fun n => n

/-- `int(value)` -/
def toInt (decimal : CodePoint → Option Nat) : Value → Except IntError Int
  | .int n => .ok n
  | .bool value => .ok (if value then 1 else 0)
  | .float (.finite q) => .ok (q.num.tdiv q.den)
  | .float .nan => .error .value
  | .float (.inf _) => .error .overflow
  | .str text =>
    match intOfStr decimal text with
    | some n => .ok n
    | none => .error .value
  | _ => .error .type

end Python
