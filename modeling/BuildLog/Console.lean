import BuildLog.Grouping
import BuildLog.View

/-!
# Consoles

A grouping together with the view that displays it: every batch of changes that the grouping hands
over is committed to the view at once, and the reader may fold the view's sections in between.

* `grouping_log`: the view has no influence on the grouping.
-/

namespace BuildLog

/-- A log being read, and its display. -/
structure Console where
  grouping : Grouping := {}
  view : View := {}

namespace Console

/-- Commit a batch, if there is one. -/
def commit? (v : View) : Option Batch → View
  | some batch => v.commit batch
  | none => v

def log (c : Console) (lines : List Text) : Console :=
  let (grouping, batch) := c.grouping.feed lines
  ⟨grouping, commit? c.view batch⟩

theorem grouping_log (c : Console) (lines : List Text) :
    (c.log lines).grouping = (c.grouping.feed lines).1 := rfl

end Console

end BuildLog
