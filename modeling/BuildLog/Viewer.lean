import BuildLog.Text.Decimal
import BuildLog.Update
import BuildLog.View.Row
import BuildLog.Viewer.Event

/-!
# The viewer

The state behind the screen: the view of the log, where it is scrolled to, what is selected, and
what polling last reported. A viewer either follows the end of the log or stays where the reader
has scrolled to.

* `top_le_maxTop`: the viewer is never scrolled beyond the last full window.
* `following_receive`: no update starts or stops following the log's end.
-/

namespace BuildLog

/-- Where a viewer is scrolled to. -/
structure Scroll where
  /-- The row to stay at while not following. -/
  offset : Nat := 0
  /-- Whether the end of the log is followed. -/
  following : Bool := true
  /-- The number of rows of the console pane. -/
  rows : Nat := 1
  deriving DecidableEq, Repr

/-- The state behind the screen. -/
structure Viewer where
  /-- What the log is called. -/
  label : String
  showTimestamps : Bool
  view : View := {}
  scroll : Scroll := {}
  nextOffset : Nat := 0
  finished : Bool := false
  lastError : Option String := none
  selected : Option Nat := none
  quitRequested : Bool := false

namespace Viewer

/-- The rows to be shown, with the reader's choices. -/
def options (v : Viewer) : Row.Options := ⟨v.showTimestamps, v.selected⟩

def statusLine (v : Viewer) : String :=
  v.label ++ "  " ++ (if v.finished then "finished" else "running") ++
    "  lines:" ++ decimal v.view.lineCount ++ " offset:" ++ decimal v.nextOffset ++
    (if v.view.collapsed then "  [collapsed]" else "") ++
    (if v.scroll.following then "" else "  [scrolled]") ++
    (match v.lastError with
      | some message => "  [error] " ++ message
      | none => "")

/-- The number of rows that are not folded away. -/
def rowCount (v : Viewer) : Nat := v.view.visibleCount

/-- The number of rows of the console pane, at least one. -/
def paneRows (v : Viewer) : Nat := max v.scroll.rows 1

/-- The row that a window showing the end of the log begins with. -/
def maxTop (v : Viewer) : Nat := v.rowCount - v.paneRows

/-- The row at the top of the console pane. -/
def top (v : Viewer) : Nat :=
  if v.scroll.following then v.maxTop else min v.scroll.offset v.maxTop

/-- Scroll to a row, or as far as possible; at the end of the log it is followed from then on. -/
def scrollTo (v : Viewer) (row : Nat) : Viewer :=
  { v with scroll := { v.scroll with
      offset := min row v.maxTop, following := v.maxTop ≤ min row v.maxTop } }

def scrollBy (v : Viewer) : ScrollAction → Viewer
  | .lineUp => v.scrollTo (v.top - 1)
  | .lineDown => v.scrollTo (v.top + 1)
  | .pageUp rows => v.scrollTo (v.top - max rows 1)
  | .pageDown rows => v.scrollTo (v.top + max rows 1)
  | .toTop => { v with scroll := { v.scroll with offset := 0, following := v.maxTop = 0 } }
  | .toBottom => { v with scroll := { v.scroll with offset := v.maxTop, following := true } }

/-- The sections that can be folded, in the order in which they are displayed. -/
def foldable (v : Viewer) : List Nat :=
  (v.view.entries.toList.filter (·.hasToggle)).map (·.id)

/-- The direction in which to select. -/
inductive Direction where
  | next
  | previous
  deriving DecidableEq, Repr

/-- The index selected next among `count` ones: without a selection the first or the last one, and
otherwise the neighbour, as long as there is one. -/
def neighbour (count : Nat) : Direction → Option Nat → Nat
  | .next, none => 0
  | .previous, none => count - 1
  | .next, some i => min (i + 1) (count - 1)
  | .previous, some i => i - 1

def rowOf? (v : Viewer) (id : Nat) : Option Nat := v.view.visible.findIdx? fun (e, _) => e.id = id

/-- Scroll just far enough that the selected section's first line is in the window. -/
def revealSelected (v : Viewer) : Viewer :=
  match v.selected.bind v.rowOf? with
  | none => v
  | some row =>
    if row < v.top then v.scrollTo row
    else if v.top + v.paneRows ≤ row then v.scrollTo (row + 1 - v.paneRows)
    else v

/-- Select the foldable section next to the selected one. -/
def select (v : Viewer) (direction : Direction) : Viewer :=
  let current := v.selected.bind fun id => v.foldable.findIdx? (· = id)
  match v.foldable[neighbour v.foldable.length direction current]? with
  | none => v
  | some id => { v with selected := some id }.revealSelected

/-- Stay at a row, unless the end of the log is followed. -/
def stayAt (v : Viewer) (row : Nat) : Viewer := if v.scroll.following then v else v.scrollTo row

def toggleSelected (v : Viewer) : Viewer :=
  match v.selected with
  | none => v
  | some id => { v with view := (v.view.toggle id).1 }.stayAt v.top

def handle (v : Viewer) : Event → Viewer
  | .quit => { v with quitRequested := true }
  | .toggleTimestamps => { v with showTimestamps := !v.showTimestamps }
  | .toggleAll => { v with view := v.view.toggleAll }.stayAt v.scroll.offset
  | .toggleSelected => v.toggleSelected
  | .selectNext => v.select .next
  | .selectPrevious => v.select .previous
  | .scroll action => v.scrollBy action
  | .viewport rows => { v with scroll := { v.scroll with rows := max rows 1 } }

/-- Take in a message. While the end of the log is not followed, new lines leave the top row where
it was. -/
def receive (v : Viewer) : Update → Viewer
  | .flush batch =>
    { v with
      view := v.view.commit batch
      scroll := if v.scroll.following then v.scroll else { v.scroll with offset := v.top } }
  | .polled _ nextOffset => { v with nextOffset := nextOffset, lastError := none }
  | .fetchFailed message => { v with lastError := some message }
  | .completed => { v with finished := true }

/-- Take in messages, the first one first. -/
def receiveAll (v : Viewer) (updates : List Update) : Viewer := updates.foldl receive v

def window (v : Viewer) (count : Nat) : List Row := Row.window v.view v.top count v.options

theorem top_le_maxTop (v : Viewer) : v.top ≤ v.maxTop := by
  unfold top
  split
  · exact Nat.le_refl _
  · exact Nat.min_le_right _ _

theorem following_receive (v : Viewer) (u : Update) :
    (v.receive u).scroll.following = v.scroll.following := by
  cases u with
  | flush batch =>
    cases h : v.scroll.following <;> simp [receive, h]
  | _ => rfl

end Viewer

end BuildLog
