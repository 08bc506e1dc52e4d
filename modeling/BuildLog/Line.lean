import BuildLog.Line.Content
import BuildLog.Line.Framing

/-!
# Lines

A console line as it is shown: its place in the log, what its frame said, its role in its section
and its content.

* `kept_of_ofFramed`: a line keeps the tag and the timestamp of its frame.
-/

namespace BuildLog

/-- The part a line plays in its section. -/
inductive Role where
  /-- A line without a tag. -/
  | basic
  /-- The first tagged line of a section. -/
  | header
  /-- A later tagged line. -/
  | continuation
  deriving DecidableEq, Repr

/-- A line as it is shown. -/
structure Line where
  /-- The place of the line in the whole log, from one. -/
  ordinal : Nat
  timestamp : Text
  tag : Option Tag
  role : Role
  content : Content
  deriving DecidableEq, Repr

namespace Line

def plain (l : Line) : Text := l.content.plain

/-- The code of a line; a line without a tag, or with an unknown one, has none. -/
def code? (l : Line) : Option Code := l.tag.bind Tag.code?

/-- The line that a framed line makes in a role. A tagged line is cut behind its label, whatever
its role. -/
def ofFramed (ordinal : Nat) (role : Role) (framed : Framed) : Line where
  ordinal := ordinal
  timestamp := framed.timestamp
  tag := framed.tag
  role := role
  content := match framed.tag with
    | none => Content.ofText framed.content
    | some tag => Content.render tag.code? framed.content

theorem kept_of_ofFramed (ordinal : Nat) (role : Role) (framed : Framed) :
    (ofFramed ordinal role framed).tag = framed.tag ∧
      (ofFramed ordinal role framed).timestamp = framed.timestamp :=
  ⟨rfl, rfl⟩

end Line

end BuildLog
