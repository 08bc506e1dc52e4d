import BuildLog.Poller.Call

/-!
# Overlapping calls

Several calls of one poller whose steps are taken in any order. An order names the call that takes
each step, and the answer at hand for it.

* `run_append`: an order behind another goes on from the state that the first one leaves.
-/

namespace BuildLog.Poller

/-- Calls of one poller, each with its next step. -/
structure Overlap where
  shared : Shared
  calls : List Call
  deriving DecidableEq, Repr

/-- Which call takes a step, and the answer at hand for it. -/
structure Choice where
  place : Nat
  reply : Reply

namespace Overlap

/-- Calls that have not begun; each is told whether the job is known to be finished. -/
def start (p : Poller) (completed : List Bool) : Overlap :=
  ⟨⟨p, [], []⟩, completed.map fun completed => ⟨completed, .entering⟩⟩

def step (o : Overlap) (choice : Choice) : Overlap :=
  match o.calls[choice.place]? with
  | none => o
  | some c =>
    let (shared, c) := c.step choice.reply o.shared
    ⟨shared, o.calls.set choice.place c⟩

def run (o : Overlap) (order : List Choice) : Overlap := order.foldl step o

/-- The number of calls that hold the poller. -/
def holders (o : Overlap) : Nat := o.calls.countP (·.phase.holds)

def hasEnded (o : Overlap) : Bool := o.calls.all (·.phase.outcome?.isSome)

theorem run_append (o : Overlap) (first second : List Choice) :
    o.run (first ++ second) = (o.run first).run second := by
  simp [run]

end Overlap

end BuildLog.Poller
