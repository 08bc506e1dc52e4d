import BuildLog.Poll.Session
import BuildLog.Poller.Call

/-!
# Overlapping polls

A tick does not wait for the poll of the tick before, so polls may overlap. Each of them sees
whether polling is over, asks whether the job has finished, calls the poller, reads the poller's
offset, and sends a message, and the steps of different polls may be taken in any order. Messages
arrive in the order in which they are sent.
-/

namespace BuildLog.Poll

/-- What overlapping polls share: the poller, and the messages sent so far. -/
structure Shared where
  poller : Poller.Shared
  messages : List Update := []
  deriving DecidableEq, Repr

/-- The next step of a poll. -/
inductive Phase where
  /-- See whether polling is over. -/
  | entering
  /-- Ask whether the job has finished. -/
  | probing
  /-- Take a step of a call. -/
  | calling (call : Poller.Call)
  /-- Read the poller's offset, for a fetch that brought some lines. -/
  | reading (lines : Nat)
  | sending (message : Update)
  | ended
  deriving DecidableEq, Repr

/-- What a step finds outside the polls: the answer to a request, and what is said about the job. -/
structure Findings where
  reply : Reply
  jobFinished : Except Failure Bool

namespace Shared

def send (s : Shared) (messages : List Update) : Shared :=
  { s with messages := s.messages ++ messages }

/-- Take in a step of a call: what it does to others is sent as messages. -/
def follow (s : Shared) (next : Poller.Shared) : Shared :=
  { s with poller := next }.send
    ((next.effects.drop s.poller.effects.length).flatMap Session.effectUpdates)

end Shared

namespace Phase

/-- The step behind a call with an outcome. -/
def behindCall : Poller.Outcome → Phase
  | .skipped => ended
  | .updated lines _ => reading lines
  | .failed cause => sending (.fetchFailed cause.message)

def step (f : Findings) (s : Shared) : Phase → Shared × Phase
  | entering => (s, if s.poller.poller.finished then ended else probing)
  | probing =>
    let completed := match f.jobFinished with
      | .ok completed => completed
      | .error _ => false
    (s, calling ⟨completed, .entering⟩)
  | calling call =>
    let (next, call) := call.step f.reply s.poller
    (s.follow next,
      match call.phase.outcome? with
      | some outcome => behindCall outcome
      | none => calling call)
  | reading lines => (s, sending (.polled lines s.poller.poller.nextOffset))
  | sending message => (s.send [message], ended)
  | ended => (s, ended)

end Phase

/-- Polls, each with its next step. -/
structure Overlap where
  shared : Shared
  polls : List Phase
  deriving DecidableEq, Repr

/-- Which poll takes a step, and what it finds. -/
structure Choice where
  place : Nat
  findings : Findings

namespace Overlap

def start (p : Poller) (count : Nat) : Overlap :=
  ⟨⟨⟨p, [], []⟩, []⟩, List.replicate count .entering⟩

def step (o : Overlap) (choice : Choice) : Overlap :=
  match o.polls[choice.place]? with
  | none => o
  | some phase =>
    let (shared, phase) := phase.step choice.findings o.shared
    ⟨shared, o.polls.set choice.place phase⟩

def run (o : Overlap) (order : List Choice) : Overlap := order.foldl step o

def hasEnded (o : Overlap) : Bool := o.polls.all (· == .ended)

/-- The offsets told in messages, in the order in which they arrive. -/
def toldOffsets (o : Overlap) : List Nat :=
  o.shared.messages.filterMap fun
    | .polled _ nextOffset => some nextOffset
    | _ => none

end Overlap

end BuildLog.Poll
