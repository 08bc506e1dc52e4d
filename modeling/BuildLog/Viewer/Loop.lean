import BuildLog.Viewer

/-!
# The viewer's loop

The loop that keeps the screen up to date. Each turn takes in the messages that have arrived, draws
the screen if anything has happened since it was last drawn, asks once for input, and ends the loop
if the reader or the terminal wants to stop. What the loop drives need not be a viewer: it has to
take in messages and events, and to say when it wants to stop.

A run is observed over a finite number of turns, each of which brings the input it is asked for and
the messages that arrive during it.

* `frames_turn`: a turn draws at most one frame, of the state that then waits for input.
-/

namespace BuildLog.Viewer

/-- What the loop can drive. -/
class Driven (V : Type) where
  receive : V → Update → V
  handle : V → Event → V
  quitRequested : V → Bool

instance : Driven Viewer := ⟨receive, handle, quitRequested⟩

/-- What a turn brings from outside. -/
structure Turn where
  /-- The messages that arrive while waiting for input. -/
  arriving : List Update := []
  event : Option Event := none
  /-- Whether the terminal wants to stop. -/
  stop : Bool := false
  deriving DecidableEq, Repr

/-- The state between two turns. -/
structure Loop (V : Type) where
  viewer : V
  /-- The messages that have arrived and are not yet taken in. -/
  queue : List Update := []
  /-- Whether the screen is out of date. -/
  dirty : Bool := true

/-- What is seen of a turn: the messages that it takes in, and then its event. -/
structure Visit (V : Type) where
  taken : List Update
  /-- The state that was drawn, if the screen was. -/
  frame : Option V
  /-- The state that waited for input. -/
  waiting : V
  event : Option Event

/-- What was seen of a run. -/
structure Trace (V : Type) where
  visits : List (Visit V) := []
  /-- The state behind the last turn. -/
  final : Loop V
  /-- The turns that were not reached. -/
  unread : List Turn := []

def Trace.frames {V : Type} (t : Trace V) : List V := t.visits.filterMap (·.frame)

namespace Loop

variable {V : Type} [Driven V]

def drain (l : Loop V) : Loop V where
  viewer := l.queue.foldl Driven.receive l.viewer
  queue := []
  dirty := l.dirty || !l.queue.isEmpty

def input (l : Loop V) (t : Turn) : Loop V :=
  match t.event with
  | some event => ⟨Driven.handle l.viewer event, l.queue ++ t.arriving, true⟩
  | none => { l with queue := l.queue ++ t.arriving }

/-- A turn: what is seen of it, and the state it leaves. -/
def turn (l : Loop V) (t : Turn) : Visit V × Loop V :=
  let drained := l.drain
  let frame := if drained.dirty then some drained.viewer else none
  (⟨l.queue, frame, drained.viewer, t.event⟩, { drained with dirty := false }.input t)

/-- Whether the loop ends behind a turn. -/
def stops (l : Loop V) (t : Turn) : Bool := t.stop || Driven.quitRequested l.viewer

/-- Run over some turns, until the loop ends or no turn is left. -/
def run (l : Loop V) : List Turn → Trace V
  | [] => { final := l }
  | t :: turns =>
    let (visit, next) := l.turn t
    if next.stops t then { visits := [visit], final := next, unread := turns }
    else
      let trace := next.run turns
      { trace with visits := visit :: trace.visits }

theorem frames_turn (l : Loop V) (t : Turn) :
    ∀ frame ∈ (l.turn t).1.frame, frame = (l.turn t).1.waiting := by
  unfold turn
  dsimp only
  split <;> simp

end Loop

end BuildLog.Viewer
