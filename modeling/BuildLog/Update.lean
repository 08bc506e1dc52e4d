import BuildLog.Change

/-!
# Updates

The messages from polling to the viewer, and the channel they go over. A channel whose receiver has
hung up takes messages and loses them.

* `received_send_of_hungUp`: nothing arrives once the receiver has hung up.
-/

namespace BuildLog

/-- A message to the viewer. -/
inductive Update where
  /-- Changes of the displayed sections. -/
  | flush (batch : Batch)
  /-- A fetch succeeded. -/
  | polled (lines nextOffset : Nat)
  /-- A fetch failed. -/
  | fetchFailed (message : String)
  /-- The job has finished. -/
  | completed
  deriving DecidableEq, Repr

/-- Messages on their way, the oldest first. -/
structure Channel where
  queue : List Update := []
  hungUp : Bool := false
  deriving DecidableEq, Repr

namespace Channel

def send (c : Channel) (u : Update) : Channel :=
  if c.hungUp then c else { c with queue := c.queue ++ [u] }

def sendBatch (c : Channel) (b : Batch) : Channel := c.send (.flush b)

/-- Send a single change, as a batch of its own. -/
def sendChange (c : Channel) (change : Change) : Channel := c.sendBatch (.single change)

def drain (c : Channel) : List Update × Channel := (c.queue, { c with queue := [] })

/-- Stop receiving. -/
def hangUp (c : Channel) : Channel := { c with hungUp := true, queue := [] }

theorem received_send_of_hungUp {c : Channel} (h : c.hungUp = true) (u : Update) :
    c.send u = c := by
  simp [send, h]

end Channel

end BuildLog
