import BuildLog.Poll.Session

/-!
# Polling on a schedule

The background task polls at a fixed interval, first at once, until polling is over or the task is
cancelled. Time is counted in milliseconds, and a poll takes none of it.

* `runTicks_of_finished`: the first tick behind the end of polling stops the task.
-/

namespace BuildLog

/-- When a task polls, and what happens meanwhile. -/
structure Schedule where
  /-- The time between two polls. -/
  interval : Nat := 250
  /-- The time at which the task is cancelled. -/
  cancelAt : Nat
  /-- The time from which on the job is reported as finished. -/
  finishedAt : Option Nat := none
  deriving DecidableEq, Repr

namespace Schedule

/-- The times of the ticks before the task is cancelled. -/
def ticks (s : Schedule) : List Nat :=
  ((List.range (s.cancelAt / s.interval + 1)).map (· * s.interval)).takeWhile (· < s.cancelAt)

/-- Whether the job is reported as finished at a time. -/
def jobFinished (s : Schedule) (time : Nat) : Bool := s.finishedAt.any (· ≤ time)

/-- How a task ended. -/
structure Ending where
  session : Session
  updates : List Update := []
  /-- Whether the task found polling to be over, rather than being cancelled. -/
  stoppedByItself : Bool := false

/-- Poll at the ticks that are left, until polling is over. -/
def runTicks (s : Schedule) (session : Session) : List Nat → Ending
  | [] => { session := session }
  | time :: later =>
    if session.poller.finished then { session := session, stoppedByItself := true }
    else
      let (next, _, updates) := { session with jobFinished := .ok (s.jobFinished time) }.poll
      let ending := s.runTicks next later
      { ending with updates := updates ++ ending.updates }

def run (s : Schedule) (session : Session) : Ending := s.runTicks session s.ticks

theorem runTicks_of_finished {session : Session} (h : session.poller.finished = true)
    (s : Schedule) (time : Nat) (later : List Nat) :
    s.runTicks session (time :: later) = { session := session, stoppedByItself := true } := by
  simp [runTicks, h]

end Schedule

end BuildLog
