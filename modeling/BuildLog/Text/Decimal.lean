/-!
# Decimal numerals

The digits of a number as they are shown in messages.
-/

namespace BuildLog

/-- A number in decimal digits, without leading zeros. -/
def decimal (n : Nat) : String := String.ofList (Nat.toDigits 10 n)

end BuildLog
