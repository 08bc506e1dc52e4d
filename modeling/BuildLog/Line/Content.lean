import BuildLog.Line.Code
import BuildLog.Style.Escape
import BuildLog.Text.Blank

/-!
# Line content

The content of a line is a row of segments: styled text, an emphasised value, or the single mark of
an empty line. Task lines and status lines are cut into an unstyled label and the value behind it;
every other text is decoded into its runs.

* `render_of_labelled?_eq_none`: without a label, a tag does not change how a text is rendered.
-/

namespace BuildLog

/-- A piece of a line's content. -/
inductive Segment where
  | text (run : Run)
  /-- An emphasised value: a task command or a status word. -/
  | value (text : Text)
  /-- The content of an empty line. -/
  | lineBreak
  deriving DecidableEq, Repr

def Segment.plain : Segment → Text
  | .text run => run.text
  | .value s => s
  | .lineBreak => []

def Segment.value? : Segment → Option Text
  | .value s => some s
  | _ => none

/-- The content of a line. -/
structure Content where
  segments : List Segment
  deriving DecidableEq, Repr

namespace Content

/-- The content of an empty line. -/
def empty : Content := ⟨[.lineBreak]⟩

/-- Whether a content is that of an empty line. -/
def isBreak (c : Content) : Bool := c.segments = [.lineBreak]

/-- The first emphasised value, if there is one. -/
def value? (c : Content) : Option Text := c.segments.findSome? Segment.value?

def plain (c : Content) : Text := c.segments.flatMap Segment.plain

/-- The content of a text without a label: its runs, or the mark of an empty line if the text is
all blank. -/
def ofText (s : Text) : Content :=
  if Text.isAllBlank s then empty else ⟨(Escape.decode s).map .text⟩

/-- The labels that a task's start is written with. -/
def taskLabels : List Text := ["[go] Task: ".toList, "[go] On Cancel Task: ".toList]

/-- The labels that the end of a task or job is written with. -/
def statusLabels : List Text :=
  ["[go] Task status: ".toList, "[go] Current job status: ".toList]

/-- The labels to look for in a line with a code. -/
def labels : Code → List Text
  | .taskStart | .cancelTaskStart => taskLabels
  | .pass | .fail | .cancelTaskPass | .cancelTaskFail | .jobPass | .jobFail => statusLabels
  | _ => []

/-- A text cut behind a label: any blanks, one of the labels, and the value up to the first line
feed. -/
def labelled? (labels : List Text) (s : Text) : Option (Text × Text) :=
  labels.findSome? fun label =>
    (Text.after? label (s.dropWhile Text.isBlank)).map fun value =>
      (s.takeWhile Text.isBlank ++ label, Text.firstLine value)

def render (code : Option Code) (s : Text) : Content :=
  match code.bind fun code => labelled? (labels code) s with
  | some (label, value) => ⟨[.text ⟨label, {}⟩, .value value]⟩
  | none => ofText s

theorem render_of_labelled?_eq_none {code : Code} {s : Text}
    (h : labelled? (labels code) s = none) : render (some code) s = ofText s := by
  simp [render, h]

end Content

end BuildLog
