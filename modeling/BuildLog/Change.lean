import BuildLog.Section

/-!
# Changes

What happens to the sections is told to a display as a sequence of changes, handed over in batches.
A batch keeps the changes of the section that was open when it began apart from those of the
sections begun since.
-/

namespace BuildLog

/-- A change to the displayed sections. -/
inductive Change where
  | appendSection (id : Nat) (after : Option Nat)
  | appendLine (id : Nat) (line : Line)
  | setOpen (id : Nat) (isOpen : Bool)
  | setAttributes (id : Nat) (attributes : Section.Attributes)
  /-- The section holds more than one line from now on and can be folded. -/
  | attachToggle (id : Nat)
  deriving DecidableEq, Repr

def Change.target : Change → Nat
  | .appendSection id _ | .appendLine id _ | .setOpen id _ | .setAttributes id _
  | .attachToggle id => id

/-- The changes made while a batch of lines was read. -/
structure Batch where
  /-- The section that was open when the batch began. -/
  continued : Option Nat
  /-- The changes of that section. -/
  continuation : List Change
  /-- All other changes. -/
  appended : List Change
  deriving DecidableEq, Repr

namespace Batch

/-- The changes of a batch in the order in which a display applies them. -/
def changes (b : Batch) : List Change := b.continuation ++ b.appended

def isEmpty (b : Batch) : Bool := b.changes.isEmpty

/-- The batch of recorded changes: those of the continued section come first, and each part keeps
its order. -/
def ofChanges (continued : Option Nat) (changes : List Change) : Batch where
  continued := continued
  continuation := changes.filter fun c => some c.target = continued
  appended := changes.filter fun c => some c.target ≠ continued

/-- A batch of a single change that continues no section. -/
def single (change : Change) : Batch := ⟨none, [], [change]⟩

end Batch

end BuildLog
