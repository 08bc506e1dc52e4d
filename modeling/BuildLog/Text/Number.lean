import BuildLog.Text

/-!
# Unsigned numbers

Reading an unsigned decimal number with a largest value: one optional `+`, then the digits `0` to
`9`. A reading that fails says why; of two faults the one further to the left wins.
-/

namespace BuildLog.Text.Number

/-- Why a text is no number in range. -/
inductive Fault where
  | empty
  | notDecimal
  | tooLarge
  deriving DecidableEq, Repr

def Fault.message : Fault → String
  | .empty => "cannot parse integer from empty string"
  | .notDecimal => "invalid digit found in string"
  | .tooLarge => "number too large to fit in target type"

def digit? (c : Char) : Option Nat :=
  if c.isDigit then some (c.toNat - '0'.toNat) else none

def hexDigit? (c : Char) : Option Nat :=
  if c.isDigit then some (c.toNat - '0'.toNat)
  else if 'a' ≤ c ∧ c ≤ 'f' then some (c.toNat - 'a'.toNat + 10)
  else if 'A' ≤ c ∧ c ≤ 'F' then some (c.toNat - 'A'.toNat + 10)
  else none

/-- The number that `value` becomes when a digit is written behind it. -/
def push (largest value : Nat) (c : Char) : Except Fault Nat :=
  match digit? c with
  | none => .error .notDecimal
  | some d => if largest < 10 * value + d then .error .tooLarge else .ok (10 * value + d)

/-- The number that a row of digits behind `value` makes. -/
def readDigits (largest : Nat) : (value : Nat) → Text → Except Fault Nat
  | value, [] => .ok value
  | value, c :: s =>
    match push largest value c with
    | .error fault => .error fault
    | .ok value => readDigits largest value s

/-- The number that a text writes, if it is at most `largest`. -/
def read (largest : Nat) : Text → Except Fault Nat
  | [] => .error .empty
  | '+' :: [] => .error .notDecimal
  | '+' :: s => readDigits largest 0 s
  | s => readDigits largest 0 s

/-- The largest value of a 64-bit word. -/
def largest64 : Nat := 0xFFFFFFFFFFFFFFFF

/-- The largest value of a 16-bit word. -/
def largest16 : Nat := 0xFFFF

end BuildLog.Text.Number
