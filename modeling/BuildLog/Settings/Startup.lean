import BuildLog.Poller
import BuildLog.Settings
import BuildLog.Viewer

/-!
# Startup

What runs at first under given settings: a viewer that names the log by its address, and a poller
that asks for the log from its beginning.

* `nextOffset_poller`: polling starts at offset zero.
-/

namespace BuildLog.Settings

def viewer (s : Settings) : Viewer :=
  { label := String.ofList s.consoleUrl, showTimestamps := s.showTimestamps }

/-- The poller before anything has been asked for. -/
def poller (s : Settings) : Poller := { chunkSize := s.chunkSize }

theorem nextOffset_poller (s : Settings) : s.poller.nextOffset = 0 := rfl

end BuildLog.Settings
