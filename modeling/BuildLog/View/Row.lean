import BuildLog.View

/-!
# Rows

The rows of the console pane. A row is a line of the log behind a gutter of two columns that shows
where sections can be folded, and optionally behind its timestamp.

* `plain_filterMap_segmentRun?`: behind its gutter and timestamp, a row reads as its line does.
* `length_window`: a window has no more rows than asked for, and no more than are left.
-/

namespace BuildLog

/-- A row of the console pane: its runs from left to right. -/
abbrev Row := List Run

namespace Row

/-- What a reader can choose about the rows. -/
structure Options where
  showTimestamps : Bool := false
  selected : Option Nat := none
  deriving DecidableEq, Repr

/-- The gutter of a section that can be folded and is open. -/
def openMarker : Text := ['▾', ' ']

/-- The gutter of a section that can be folded and is closed. -/
def closedMarker : Text := ['▸', ' ']

/-- The gutter of all other rows. -/
def noMarker : Text := [' ', ' ']

def statusHue : Section.Status → Hue
  | .running => .cyan
  | .passed => .green
  | .failed => .red
  | .cancelled => .yellow

/-- The colour of a section, if anything is known of how it stands; failure shows first. -/
def sectionColor (e : View.Entry) : Option Color :=
  (if e.attributes.errored then some .red else e.status.map statusHue).map (.basic · false)

/-- Whether a line is the first one of its section. -/
def isFirst (e : View.Entry) (l : Line) : Bool := e.lines[0]?.any (·.ordinal = l.ordinal)

def marker (e : View.Entry) (l : Line) : Text :=
  if e.hasToggle && isFirst e l then if e.isOpen then openMarker else closedMarker else noMarker

def gutter (e : View.Entry) (l : Line) (selected : Bool) : Run where
  text := marker e l
  style := { fg := sectionColor e, modifiers := { reversed := selected && isFirst e l } }

/-- The number of columns that timestamps are aligned to. -/
def timestampColumns : Nat := 12

/-- The style of timestamps, the status line and the key hints. -/
def faint : Style := { fg := some (.basic .black true) }

/-- The timestamp in front of a line, aligned to the right. -/
def timestamp (l : Line) : Run := ⟨l.timestamp.leftpad timestampColumns ' ' ++ [' '], faint⟩

/-- The style that a line's segments are laid over: a header has the colour of its section. -/
def baseStyle (e : View.Entry) (l : Line) : Style :=
  match l.role with
  | .header => { fg := sectionColor e }
  | _ => {}

/-- The run of a segment; the mark of an empty line has none. -/
def segmentRun? (base : Style) : Segment → Option Run
  | .text run => some ⟨run.text, base.patch run.style⟩
  | .value s => some ⟨s, base.inBold⟩
  | .lineBreak => none

def ofLine (options : Options) (e : View.Entry) (l : Line) : Row :=
  gutter e l (options.selected = some e.id) ::
    ((if options.showTimestamps then [timestamp l] else []) ++
      l.content.segments.filterMap (segmentRun? (baseStyle e l)))

/-- The rows of a view from `top` on, at most `count` of them. -/
def window (v : View) (top count : Nat) (options : Options) : List Row :=
  ((v.visible.drop top).take count).map fun (e, l) => ofLine options e l

def plain (r : Row) : Text := r.flatMap Run.text

theorem plain_filterMap_segmentRun? (base : Style) (segments : List Segment) :
    plain (segments.filterMap (segmentRun? base)) = segments.flatMap Segment.plain := by
  induction segments with
  | nil => rfl
  | cons s segments ih =>
    cases s <;> simp_all [plain, segmentRun?, Segment.plain, List.filterMap_cons]

theorem length_window (v : View) (top count : Nat) (options : Options) :
    (window v top count options).length = min count (v.visibleCount - top) := by
  simp [window, View.length_visible]

end Row

end BuildLog
