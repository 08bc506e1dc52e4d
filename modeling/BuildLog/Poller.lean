import BuildLog.Fetch.Chunk
import BuildLog.Grouping

/-!
# The poller

A poller pulls the log piece by piece: it asks for everything past its offset, hands the new lines
to a grouping in batches, and moves its offset on. At most one request is under way at a time, and
once a fetch has succeeded with the job known to be finished there are no more requests.

* `flatten_chunks`: cutting lines into batches loses none.
* `notify_of_finished`: a finished poller does nothing.
-/

namespace BuildLog

/-- Cut a list into pieces of some length; the last one may be shorter. A length of zero counts as
one. -/
def chunks {α : Type} (size : Nat) : List α → List (List α)
  | [] => []
  | x :: xs => (x :: xs.take (size - 1)) :: chunks size (xs.drop (size - 1))
termination_by xs => xs.length
decreasing_by
  simp only [List.length_drop, List.length_cons]
  omega

theorem flatten_chunks {α : Type} (size : Nat) (xs : List α) : (chunks size xs).flatten = xs := by
  fun_induction chunks size xs with
  | case1 => rfl
  | case2 x xs ih => simp [ih]

/-- The state of polling. -/
structure Poller where
  grouping : Grouping := {}
  /-- The most lines handed to the grouping at once. -/
  chunkSize : Nat := 1000
  /-- The offset to ask for next. -/
  nextOffset : Nat := 0
  /-- Whether a request is under way. -/
  inFlight : Bool := false
  /-- Whether polling is over. -/
  finished : Bool := false
  deriving DecidableEq, Repr

namespace Poller

/-- What a call of the poller did. -/
inductive Outcome where
  /-- A request was under way already, or polling was over. -/
  | skipped
  | updated (lines : Nat) (finished : Bool)
  /-- The request failed, and the offset stays as it was. -/
  | failed (cause : Failure)
  deriving DecidableEq, Repr

/-- What others see of a call. -/
inductive Effect where
  /-- Lines were handed to the grouping. -/
  | fed (lines : List Text) (batch : Option Batch)
  /-- A fetch succeeded, with or without new lines. -/
  | updated
  /-- Polling is over. -/
  | completed
  deriving DecidableEq, Repr

/-- What a poller is doing. -/
inductive State where
  | idle
  | fetching
  | finished
  deriving DecidableEq, Repr

def state (p : Poller) : State :=
  if p.finished then .finished else if p.inFlight then .fetching else .idle

/-- Begin a request, unless polling is over or one is under way: the offset to ask for. -/
def begin (p : Poller) : Option (Nat × Poller) :=
  if p.finished || p.inFlight then none else some (p.nextOffset, { p with inFlight := true })

/-- Hand batches of lines to the grouping, one after the other. -/
def feedAll (g : Grouping) : List (List Text) → Grouping × List Effect
  | [] => (g, [])
  | lines :: later =>
    let (g, batch) := g.feed lines
    let (g, effects) := feedAll g later
    (g, .fed lines batch :: effects)

/-- The new lines of an answer. An answer that does not go beyond the offset asked for has none. -/
def newLines (offset : Nat) (chunk : Chunk) : List Text :=
  if offset < chunk.nextOffset then Text.lines chunk.text else []

/-- Take in a successful answer to the request for an offset. -/
def accept (p : Poller) (completed : Bool) (offset : Nat) (chunk : Chunk) :
    Poller × Outcome × List Effect :=
  let lines := newLines offset chunk
  let (grouping, fed) := feedAll p.grouping (chunks p.chunkSize lines)
  ({ p with
      grouping := grouping
      nextOffset := if offset < chunk.nextOffset then chunk.nextOffset else p.nextOffset
      finished := p.finished || completed
      inFlight := false },
    .updated lines.length completed,
    fed ++ .updated :: if completed && !p.finished then [.completed] else [])

/-- End the request for an offset with its answer. -/
def settle (p : Poller) (completed : Bool) (offset : Nat) : Reply →
    Poller × Outcome × List Effect
  | .error cause => ({ p with inFlight := false }, .failed cause, [])
  | .ok chunk => p.accept completed offset chunk

/-- One call on a scripted source, when it is the only one. -/
def notify (p : Poller) (source : Script) (completed : Bool) :
    (Poller × Script) × Outcome × List Effect :=
  match p.begin with
  | none => ((p, source), .skipped, [])
  | some (offset, p) =>
    let (reply, source) := source.fetch offset
    let (p, result) := p.settle completed offset reply
    ((p, source), result)

theorem notify_of_finished {p : Poller} (h : p.finished = true) (source : Script)
    (completed : Bool) : p.notify source completed = ((p, source), .skipped, []) := by
  simp [notify, begin, h]

end Poller

end BuildLog
