import BuildLog.Fetch.Failure
import BuildLog.Text.Lines

/-!
# Chunks of a log

What a request for the log is answered with, and a source whose answers are written down beforehand.

* `requested_fetch`: a scripted source notes every offset it is asked for.
-/

namespace BuildLog

/-- The log text from an offset on, and the offset to go on from. -/
structure Chunk where
  text : Text
  nextOffset : Nat
  deriving DecidableEq, Repr

/-- The answer to a request for the log. -/
abbrev Reply := Except Failure Chunk

/-- A source of log text whose answers are written down beforehand. -/
structure Script where
  replies : List Reply
  /-- The offsets asked for so far. -/
  requested : List Nat := []

namespace Script

/-- The address that a script's failures name. -/
def url : String := "mock://console"

/-- The answer once a script is used up. -/
def exhausted : Failure := .malformed url "MockLogSource: no more responses configured"

def calls (s : Script) : Nat := s.requested.length

/-- Answer a request for the log from an offset on. -/
def fetch (s : Script) (offset : Nat) : Reply × Script :=
  match s.replies with
  | [] => (.error exhausted, { s with requested := s.requested ++ [offset] })
  | reply :: replies => (reply, ⟨replies, s.requested ++ [offset]⟩)

theorem requested_fetch (s : Script) (offset : Nat) :
    (s.fetch offset).2.requested = s.requested ++ [offset] := by
  unfold fetch
  split <;> rfl

end Script

end BuildLog
