/-!
# Layout

The screen holds a status line at the top, key hints at the bottom, and the console pane between
them. Where there is too little room the pane keeps its row first, then the status line.

* `heights_sum`: the three parts fill the screen exactly.
-/

namespace BuildLog

/-- A rectangle of the screen. -/
structure Area where
  x : Nat
  y : Nat
  width : Nat
  height : Nat
  deriving DecidableEq, Repr

namespace Area

/-- The largest coordinate. -/
def largest : Nat := 65535

/-- The part of a rectangle that does not go beyond the largest coordinate. -/
def clamp (a : Area) : Area :=
  { a with width := min a.width (largest - a.x), height := min a.height (largest - a.y) }

end Area

/-- The parts of the screen. -/
structure Layout where
  header : Area
  console : Area
  footer : Area
  deriving DecidableEq, Repr

namespace Layout

def headerRows (height : Nat) : Nat := if 2 ≤ height then 1 else 0

def footerRows (height : Nat) : Nat := if 3 ≤ height then 1 else 0

def consoleRows (height : Nat) : Nat := height - headerRows height - footerRows height

def ofArea (a : Area) : Layout where
  header := { a with height := headerRows a.height }
  console := { a with y := a.y + headerRows a.height, height := consoleRows a.height }
  footer :=
    { a with
      y := a.y + headerRows a.height + consoleRows a.height
      height := footerRows a.height }

theorem heights_sum (a : Area) :
    (ofArea a).header.height + (ofArea a).console.height + (ofArea a).footer.height =
      a.height := by
  simp only [ofArea, consoleRows, headerRows, footerRows]
  split <;> split <;> omega

end Layout

end BuildLog
