/-!
# Ranges of code points

A property of characters is given by the ranges of the code points that have it.

* `contains_append`: a table can be looked up part by part.
-/

namespace BuildLog.Text

/-- Ranges of code points, each with its first and its last one. -/
abbrev Ranges := List (Nat × Nat)

/-- Whether a character is in one of the ranges. -/
def Ranges.contains (ranges : Ranges) (c : Char) : Bool :=
  ranges.any fun (first, last) => first ≤ c.toNat && c.toNat ≤ last

theorem Ranges.contains_append (a b : Ranges) (c : Char) :
    Ranges.contains (a ++ b) c = (Ranges.contains a c || Ranges.contains b c) := by
  simp [Ranges.contains]

end BuildLog.Text
