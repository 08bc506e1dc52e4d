import BuildLog.Text.Number

/-!
# JSON numerals

A numeral is kept as it is written: sign, whole digits, and, if there are any, the digits behind the
point and the exponent. A numeral without point and exponent may write a natural number; every
numeral writes a double, unless it is too large for one.

* `natural?_eq_some_iff`: exactly which numerals write a 64-bit natural number.
-/

namespace BuildLog.Json

/-- The exponent of a numeral. -/
structure Exponent where
  negative : Bool
  digits : List Nat
  deriving DecidableEq, Repr

/-- A numeral, with the digits as they are written. -/
structure Numeral where
  negative : Bool := false
  whole : List Nat
  /-- The digits behind the point, if there is one. -/
  fraction : Option (List Nat) := none
  exponent : Option Exponent := none
  deriving DecidableEq, Repr

def valueOfDigits (digits : List Nat) : Nat := digits.foldl (fun n d => 10 * n + d) 0

namespace Numeral

/-- The 64-bit natural number that a numeral writes, if it writes one. -/
def natural? (n : Numeral) : Option Nat :=
  if n.negative = false ∧ n.fraction = none ∧ n.exponent = none ∧
      valueOfDigits n.whole ≤ Text.Number.largest64 then
    some (valueOfDigits n.whole)
  else none

theorem natural?_eq_some_iff {n : Numeral} {value : Nat} :
    n.natural? = some value ↔
      (n.negative = false ∧ n.fraction = none ∧ n.exponent = none ∧
        valueOfDigits n.whole ≤ Text.Number.largest64) ∧ valueOfDigits n.whole = value := by
  unfold natural?
  split <;> simp [*]

/-- A number being read as a 64-bit significand and a power of ten. -/
structure Scaled where
  significand : Nat := 0
  power : Int := 0
  /-- Whether a digit of this part no longer went into the significand. -/
  full : Bool := false
  deriving DecidableEq, Repr

namespace Scaled

/-- Whether a significand has room for one more digit. -/
def fits (s : Scaled) (digit : Nat) : Bool :=
  !s.full && 10 * s.significand + digit ≤ Text.Number.largest64

/-- Read a digit before the point. A digit without room still counts for the power. -/
def pushWhole (s : Scaled) (digit : Nat) : Scaled :=
  if s.fits digit then { s with significand := 10 * s.significand + digit }
  else { s with power := s.power + 1, full := true }

/-- Read a digit behind the point. A digit without room is dropped, and so are all behind it. -/
def pushFraction (s : Scaled) (digit : Nat) : Scaled :=
  if s.fits digit then
    { s with significand := 10 * s.significand + digit, power := s.power - 1 }
  else { s with full := true }

end Scaled

/-- The significand and power of ten that a numeral is read as. -/
def scaled (n : Numeral) : Scaled :=
  let whole := n.whole.foldl Scaled.pushWhole {}
  let both := (n.fraction.getD []).foldl Scaled.pushFraction { whole with full := false }
  match n.exponent with
  | none => both
  | some e =>
    let shift : Int := valueOfDigits e.digits
    { both with power := if e.negative then both.power - shift else both.power + shift }

/-- A natural number rounded to the 53 significant bits of a double, halves to even. -/
def roundToDouble (n : Nat) : Nat :=
  let unit := Nat.pow 2 (n.log2 - 52)
  let quotient := n / unit
  let rest := n % unit
  let up := unit < 2 * rest ∨ (unit = 2 * rest ∧ quotient % 2 = 1)
  (if up then quotient + 1 else quotient) * unit

/-- The least number that rounds to no double. -/
def doubleLimit : Nat := Nat.pow 2 1024 - Nat.pow 2 970

/-- Whether a numeral is small enough for a double. The significand and the power of ten are each
rounded to a double before they are multiplied. -/
def isFinite (n : Numeral) : Bool :=
  let s := n.scaled
  s.significand == 0 || s.power ≤ 0 ||
    (s.power ≤ 308 &&
      roundToDouble s.significand * roundToDouble (Nat.pow 10 s.power.toNat) < doubleLimit)

end Numeral

end BuildLog.Json
