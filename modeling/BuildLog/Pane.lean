import BuildLog.Grouping

/-!
# Panes

Several groupings of one log side by side. Every batch of lines goes to each pane; a pane that
holds its lines back is released by its name, or with all others.

* `feed_eq_map`: panes do not influence each other.
-/

namespace BuildLog

/-- A grouping with a name. Names need not be unique. -/
structure Pane where
  name : String
  grouping : Grouping
  deriving DecidableEq, Repr

namespace Pane

def new (name : String) (deferred : Bool) : Pane := ⟨name, { deferred := deferred }⟩

def act (p : Pane) (f : Grouping → Grouping × Option Batch) : Pane × Option Batch :=
  let (grouping, batch) := f p.grouping
  ({ p with grouping := grouping }, batch)

/-- Give a batch of lines to every pane. -/
def feed (panes : List Pane) (lines : List Text) : List (Pane × Option Batch) :=
  panes.map fun p => p.act (·.feed lines)

/-- Whether a pane is meant by a name; no name means all of them. -/
def answersTo (p : Pane) (name : Option String) : Bool :=
  match name with
  | none => true
  | some name => p.name = name

/-- Release the panes of a name, or all of them. -/
def release (panes : List Pane) (name : Option String) : List (Pane × Option Batch) :=
  panes.map fun p => if p.answersTo name then p.act (·.release) else (p, none)

theorem feed_eq_map (panes : List Pane) (lines : List Text) (i : Nat) :
    (feed panes lines)[i]? = panes[i]?.map fun p => p.act (·.feed lines) := by
  simp [feed]

end Pane

end BuildLog
