import BuildLog.Screen.Layout
import BuildLog.Text.Cluster
import BuildLog.Viewer

/-!
# Frames

What the screen shows: rows of cells, each holding one cluster of characters. A cluster of two
columns is followed by the blank cell that it covers.

* `length_padded`: a drawn row is padded to the width of the screen.
-/

namespace BuildLog

/-- A place on the screen. -/
structure Cell where
  symbol : Text
  style : Style
  deriving DecidableEq, Repr

namespace Cell

/-- A cell with nothing in it. -/
def blank (style : Style) : Cell := ⟨[' '], style⟩

end Cell

namespace Frame

def keyHints : String :=
  "q quit  t timestamps  c collapse all  n/p select  space fold  ↑↓ PgUp PgDn Home End"

/-- A cluster of characters with the style it is drawn in. -/
structure Symbol where
  text : Text
  style : Style
  deriving DecidableEq, Repr

def Symbol.columns (s : Symbol) : Nat := Text.clusterColumns s.text

/-- The symbols of a row that is drawn over a style. Line feeds are left out. -/
def symbols (base : Style) (r : Row) : List Symbol :=
  r.flatMap fun run =>
    ((Text.clusters run.text).filter (· ≠ ['\n'])).map fun text => ⟨text, base.patch run.style⟩

/-- The first symbols of a row that fit behind `used` columns into `limit` columns; those that
could never fit are left out. -/
def fitting (limit : Nat) : (used : Nat) → List Symbol → List Symbol
  | _, [] => []
  | used, s :: rest =>
    if limit < s.columns then fitting limit used rest
    else if limit < used + s.columns then []
    else s :: fitting limit (used + s.columns) rest

/-- The cells of a symbol: itself, and those it covers, the first of which loses its style. A symbol
without columns has none. -/
def cells (base : Style) (s : Symbol) : List Cell :=
  match s.columns with
  | 0 => []
  | 1 => [⟨s.text, s.style⟩]
  | n + 2 => ⟨s.text, s.style⟩ :: Cell.blank {} :: List.replicate n (Cell.blank base)

/-- Fill a row of cells up to the width of the screen. -/
def padded (width : Nat) (base : Style) (row : List Cell) : List Cell :=
  row ++ List.replicate (width - row.length) (Cell.blank base)

def drawRow (width : Nat) (base : Style) (r : Row) : List Cell :=
  padded width base ((fitting width 0 (symbols base r)).flatMap (cells base))

/-- The part of a text that is drawn in a single row: its first line, without the line's end. -/
def shownLine (s : Text) : Text :=
  let line := Text.firstLine s
  if line.length < s.length ∧ line.getLast? = some '\r' then line.dropLast else line

def drawText (width : Nat) (s : Text) : List Cell := drawRow width Row.faint [⟨shownLine s, {}⟩]

/-- The status line, shortened to the screen. -/
def statusRow (v : Viewer) (width : Nat) : List Cell :=
  drawText width (Text.fit v.statusLine.toList width)

/-- The key hints, shortened to the screen and aligned to the right. -/
def hintsRow (width : Nat) : List Cell :=
  let hints := Text.fit keyHints.toList width
  drawText width (List.replicate (width - Text.width hints) ' ' ++ hints)

/-- The rows of the console pane; those behind the end of the log are blank. -/
def consolePane (v : Viewer) (width rows : Nat) : List (List Cell) :=
  let drawn := (v.window rows).map (drawRow width {})
  drawn ++ List.replicate (rows - drawn.length) (padded width {} [])

def draw (v : Viewer) (width height : Nat) : List (List Cell) :=
  let layout := Layout.ofArea (Area.clamp ⟨0, 0, width, height⟩)
  List.replicate layout.header.height (statusRow v layout.header.width) ++
    consolePane v layout.console.width layout.console.height ++
    List.replicate layout.footer.height (hintsRow layout.footer.width)

theorem length_padded {width : Nat} {row : List Cell} (h : row.length ≤ width) (base : Style) :
    (padded width base row).length = width := by
  simp [padded, h]

end Frame

end BuildLog
