import BuildLog.Line
import BuildLog.Section.Kind
import BuildLog.Section.Status

/-!
# Sections

A section is a group of lines that can be folded. It is known by its place in the log, starts open
and without a kind, and gathers its attributes as its lines arrive.

* `displayStatus_of_verdict`: a verdict is what is displayed.
-/

namespace BuildLog

/-- What is known of a section besides its lines. -/
structure Section.Attributes where
  kind : Option Section.Kind := none
  verdict : Option Section.Verdict := none
  errored : Bool := false
  multiline : Bool := false
  deriving DecidableEq, Repr

/-- A group of lines that can be folded. -/
structure Section where
  /-- The place of the section in the log, from zero. -/
  id : Nat
  attributes : Section.Attributes := {}
  isOpen : Bool := true
  lines : Array Line := #[]
  deriving DecidableEq, Repr

namespace Section

/-- The status to display: the verdict, or "running" for a task or on-cancel section that still
receives lines. -/
def displayStatus (s : Section) : Option Status :=
  match s.attributes.verdict, s.attributes.kind with
  | some verdict, _ => some verdict.status
  | none, some .task | none, some .cancel => if s.isOpen then some .running else none
  | none, _ => none

theorem displayStatus_of_verdict {s : Section} {verdict : Verdict}
    (h : s.attributes.verdict = some verdict) : s.displayStatus = some verdict.status := by
  simp [displayStatus, h]

end Section

end BuildLog
