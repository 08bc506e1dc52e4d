import BuildLog.Poller
import BuildLog.Update

/-!
# Polling sessions

A session polls a source again and again and reports to the viewer. Each poll asks first whether
the job has finished, then fetches, and sends a message for every batch of changes, for the end of
the job, and for the poll itself.

* `poll_of_finished`: once polling is over, nothing is fetched or sent.
-/

namespace BuildLog

/-- A poller with its source. -/
structure Session where
  poller : Poller := {}
  source : Script
  /-- What the source says about the job; without an answer the job counts as running. -/
  jobFinished : Except Failure Bool := .ok false

namespace Session

/-- The messages for what a call did to others. -/
def effectUpdates : Poller.Effect → List Update
  | .fed _ (some batch) => [.flush batch]
  | .fed _ none => []
  | .updated => []
  | .completed => [.completed]

def outcomeUpdates (nextOffset : Nat) : Poller.Outcome → List Update
  | .skipped => []
  | .updated lines _ => [.polled lines nextOffset]
  | .failed cause => [.fetchFailed cause.message]

def poll (s : Session) : Session × Poller.Outcome × List Update :=
  if s.poller.finished then (s, .skipped, [])
  else
    let completed := match s.jobFinished with
      | .ok completed => completed
      | .error _ => false
    let ((poller, source), outcome, effects) := s.poller.notify s.source completed
    ({ s with poller := poller, source := source }, outcome,
      effects.flatMap effectUpdates ++ outcomeUpdates poller.nextOffset outcome)

theorem poll_of_finished {s : Session} (h : s.poller.finished = true) :
    s.poll = (s, .skipped, []) := by
  simp [poll, h]

end Session

end BuildLog
