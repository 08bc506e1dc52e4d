/-!
# Input events

What a reader can ask of the viewer, and the keys that ask for it. With the control key held, only
the two keys that end a terminal session mean something; the other modifier keys do not count.

* `Key.event?_char_of_control`: no other character means anything with the control key held.
-/

namespace BuildLog

/-- A way to scroll. -/
inductive ScrollAction where
  | lineUp
  | lineDown
  | pageUp (rows : Nat)
  | pageDown (rows : Nat)
  | toTop
  | toBottom
  deriving DecidableEq, Repr

/-- What a reader asks for. -/
inductive Event where
  | quit
  | toggleTimestamps
  /-- Fold all sections, or unfold them again. -/
  | toggleAll
  | toggleSelected
  | selectNext
  | selectPrevious
  | scroll (action : ScrollAction)
  /-- The console pane has this many rows now. -/
  | viewport (rows : Nat)
  deriving DecidableEq, Repr

/-- A key. -/
inductive Key where
  | char (c : Char)
  | escape
  | enter
  | tab
  | backTab
  | up
  | down
  | pageUp
  | pageDown
  | home
  | last
  | other
  deriving DecidableEq, Repr

namespace Key

/-- The event that a key asks for when the console pane has some rows. -/
def event? (key : Key) (control : Bool) (rows : Nat) : Option Event :=
  if control then
    if key = .char 'c' ∨ key = .char 'd' then some .quit else none
  else
    match key with
    | .char 'q' | .escape => some .quit
    | .char 't' => some .toggleTimestamps
    | .char 'c' => some .toggleAll
    | .char ' ' | .enter => some .toggleSelected
    | .char 'n' | .tab => some .selectNext
    | .char 'p' | .backTab => some .selectPrevious
    | .char 'k' | .up => some (.scroll .lineUp)
    | .char 'j' | .down => some (.scroll .lineDown)
    | .pageUp => some (.scroll (.pageUp (max rows 1)))
    | .pageDown => some (.scroll (.pageDown (max rows 1)))
    | .char 'g' | .home => some (.scroll .toTop)
    | .char 'G' | .last => some (.scroll .toBottom)
    | _ => none

theorem event?_char_of_control {c : Char} (hc : c ≠ 'c') (hd : c ≠ 'd') (rows : Nat) :
    event? (.char c) true rows = none := by
  simp [event?, hc, hd]

end Key

end BuildLog
