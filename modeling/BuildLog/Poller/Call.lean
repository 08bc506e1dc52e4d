import BuildLog.Poller

/-!
# Steps of a call

A call of the poller takes several steps, and calls that overlap may take theirs in any order. Each
step reads or writes one thing that the calls share. A call holds the poller from the moment it has
marked a request as under way until it releases it.

* `iterate_step`: a call that is the only one does in its steps what `Poller.notify` does at once.
-/

namespace BuildLog.Poller

/-- What overlapping calls share: the poller, and what others have seen so far. -/
structure Shared where
  poller : Poller
  /-- The offsets asked for. -/
  requested : List Nat := []
  effects : List Effect := []
  deriving DecidableEq, Repr

/-- The next step of a call. -/
inductive Phase where
  /-- See whether polling is over. -/
  | entering
  /-- Mark a request as under way, unless one is. -/
  | locking
  /-- See again whether polling is over. -/
  | rechecking
  /-- Read the offset to ask for. -/
  | locating
  | requesting (offset : Nat)
  | awaiting (offset : Nat)
  /-- Hand the new lines of an answer to the grouping. -/
  | feeding (offset : Nat) (chunk : Chunk)
  /-- Move the offset on. -/
  | storing (nextOffset lines : Nat)
  /-- Note whether polling is over. -/
  | finishing (lines : Nat)
  /-- Report a successful fetch. -/
  | reporting (lines : Nat) (isFirst : Bool)
  /-- Report that polling is over. -/
  | announcing (lines : Nat)
  /-- Mark no request as under way. -/
  | releasing (outcome : Outcome)
  | ended (outcome : Outcome)
  deriving DecidableEq, Repr

/-- A call of the poller. -/
structure Call where
  /-- Whether the job is known to be finished. -/
  completed : Bool
  phase : Phase := .entering
  deriving DecidableEq, Repr

namespace Phase

/-- Whether a call holds the poller before a step. -/
def holds : Phase → Bool
  | entering | locking | ended _ => false
  | _ => true

/-- The outcome of a call that has ended. -/
def outcome? : Phase → Option Outcome
  | ended outcome => some outcome
  | _ => none

end Phase

namespace Shared

/-- Ask for the log from an offset on. -/
def request (s : Shared) (offset : Nat) : Shared := { s with requested := s.requested ++ [offset] }

/-- Hand lines to the grouping, at most so many at once as the poller may. -/
def feed (s : Shared) (lines : List Text) : Shared :=
  let (grouping, fed) := feedAll s.poller.grouping (chunks s.poller.chunkSize lines)
  { s with poller := { s.poller with grouping := grouping }, effects := s.effects ++ fed }

def report (s : Shared) (e : Effect) : Shared := { s with effects := s.effects ++ [e] }

end Shared

namespace Call

/-- Take the next step. An answer is only looked at by a call that waits for one. -/
def step (reply : Reply) (s : Shared) (c : Call) : Shared × Call :=
  let goOn (s : Shared) (phase : Phase) : Shared × Call := (s, { c with phase := phase })
  match c.phase with
  | .entering => goOn s (if s.poller.finished then .ended .skipped else .locking)
  | .locking =>
    if s.poller.inFlight then goOn s (.ended .skipped)
    else goOn { s with poller := { s.poller with inFlight := true } } .rechecking
  | .rechecking => goOn s (if s.poller.finished then .releasing .skipped else .locating)
  | .locating => goOn s (.requesting s.poller.nextOffset)
  | .requesting offset => goOn (s.request offset) (.awaiting offset)
  | .awaiting offset =>
    match reply with
    | .error cause => goOn s (.releasing (.failed cause))
    | .ok chunk => goOn s (.feeding offset chunk)
  | .feeding offset chunk =>
    let lines := newLines offset chunk
    goOn (s.feed lines)
      (if offset < chunk.nextOffset then .storing chunk.nextOffset lines.length
       else .finishing lines.length)
  | .storing nextOffset lines =>
    goOn { s with poller := { s.poller with nextOffset := nextOffset } } (.finishing lines)
  | .finishing lines =>
    goOn { s with poller := { s.poller with finished := s.poller.finished || c.completed } }
      (.reporting lines (c.completed && !s.poller.finished))
  | .reporting lines isFirst =>
    goOn (s.report .updated)
      (if isFirst then .announcing lines else .releasing (.updated lines c.completed))
  | .announcing lines => goOn (s.report .completed) (.releasing (.updated lines c.completed))
  | .releasing outcome =>
    goOn { s with poller := { s.poller with inFlight := false } } (.ended outcome)
  | .ended _ => (s, c)

/-- Take some steps, all with the same answer at hand. -/
def iterate (reply : Reply) : (count : Nat) → Shared × Call → Shared × Call
  | 0, state => state
  | count + 1, (s, c) => iterate reply count (c.step reply s)

theorem iterate_ended (reply : Reply) (count : Nat) (s : Shared) (completed : Bool)
    (outcome : Outcome) :
    iterate reply count (s, ⟨completed, .ended outcome⟩) = (s, ⟨completed, .ended outcome⟩) := by
  induction count with
  | zero => rfl
  | succ count ih => exact ih

/-- The steps that a call takes at most. -/
def mostSteps : Nat := 12

theorem iterate_step (s : Shared) (source : Script) (completed : Bool) :
    let alone :=
      iterate (source.fetch s.poller.nextOffset).1 mostSteps (s, ⟨completed, .entering⟩)
    let notified := s.poller.notify source completed
    alone.1.poller = notified.1.1 ∧ alone.2.phase = .ended notified.2.1 ∧
      alone.1.effects = s.effects ++ notified.2.2 := by
  intro alone notified
  subst alone notified
  cases hf : s.poller.finished with
  | true => simp [mostSteps, iterate, step, notify, begin, hf]
  | false =>
    cases hi : s.poller.inFlight with
    | true => simp [mostSteps, iterate, step, notify, begin, hf, hi]
    | false =>
      cases hr : (source.fetch s.poller.nextOffset).1 with
      | error cause =>
        simp [mostSteps, iterate, step, notify, begin, settle, hf, hi, hr, Shared.request]
      | ok chunk =>
        by_cases ho : s.poller.nextOffset < chunk.nextOffset <;> cases completed <;>
          simp [mostSteps, iterate, step, notify, begin, settle, accept, hf, hi, hr, ho,
            Shared.request, Shared.feed, Shared.report]

end Call

end BuildLog.Poller
