import BuildLog.Tree

/-!
# Grouping a log into sections

Raw lines are read one after the other and grouped into sections. The first tagged line of a
section gives it its kind; a line that its kind admits continues it, and any other tagged line
starts the next section. A line that ends a task or job also closes its section. Lines without a
tag stay in the section that is open.

Lines come in batches, and the section that is open at the end of one is carried into the next. A
grouping can hold its lines back until it is released.

* `process_nil`: an empty batch changes nothing.
* `feed_of_deferred`, `feed_of_not_deferred`: lines are either held back or processed at once.
-/

namespace BuildLog

/-- The state of reading a log into sections. -/
structure Grouping where
  tree : Tree := {}
  /-- The section that receives lines, once there is one. -/
  cursor : Option Nat := none
  lineCount : Nat := 0
  deferred : Bool := false
  /-- The lines held back. -/
  queue : List Text := []
  deriving DecidableEq, Repr

namespace Grouping

/-- Read one line into the section at `cursor`; the result has the section that receives the next
line. -/
def consume (t : Tree) (cursor ordinal : Nat) (framed : Framed) : Tree × Nat :=
  match framed.tag with
  | none => (t.edit cursor (.write (.ofFramed ordinal .basic framed)), cursor)
  | some tag =>
    let code := tag.code?
    let header := Section.Edit.write (.ofFramed ordinal .header framed)
    let t := t.edit cursor (.detectStatus code)
    match t.kind? cursor with
    | none =>
      let t := (t.edit cursor (.assignKind code)).edit cursor header
      if Section.endsSection code then (t.closeAndAppend cursor, t.nextId) else (t, cursor)
    | some kind =>
      if kind.admits code then
        let t := (t.edit cursor .markMultiline).edit cursor
          (.write (.ofFramed ordinal .continuation framed))
        if Section.endsSection code then (t.closeAndAppend cursor, t.nextId) else (t, cursor)
      else
        let next := t.nextId
        (((t.closeAndAppend cursor).edit next (.assignKind code)).edit next header, next)

/-- A tree that is being read into: its open section and how many lines it has. -/
structure Reading where
  tree : Tree
  cursor : Nat
  lineCount : Nat
  deriving DecidableEq, Repr

def Reading.next (r : Reading) (raw : Text) : Reading :=
  let (tree, cursor) := consume r.tree r.cursor (r.lineCount + 1) (.ofRaw raw)
  ⟨tree, cursor, r.lineCount + 1⟩

/-- The reading that a batch of lines begins with: at the open section, or at a new one if the log
has none yet. -/
def start (g : Grouping) : Reading :=
  match g.cursor with
  | some cursor => ⟨g.tree, cursor, g.lineCount⟩
  | none => ⟨g.tree.append, g.tree.nextId, g.lineCount⟩

/-- Read a batch of lines and hand over its changes; an empty batch has none. -/
def process (g : Grouping) (lines : List Text) : Grouping × Option Batch :=
  if lines.isEmpty then (g, none)
  else
    let r := lines.foldl Reading.next g.start
    let (tree, batch) := r.tree.takeFlush (some g.start.cursor)
    ({ g with tree := tree, cursor := some r.cursor, lineCount := r.lineCount }, some batch)

/-- Take in a batch of lines: it is processed at once, or held back. -/
def feed (g : Grouping) (lines : List Text) : Grouping × Option Batch :=
  if g.deferred then ({ g with queue := g.queue ++ lines }, none) else g.process lines

/-- Hold lines back no longer, and process those in the queue as one batch. -/
def release (g : Grouping) : Grouping × Option Batch :=
  { g with deferred := false, queue := [] }.process g.queue

@[simp] theorem process_nil (g : Grouping) : g.process [] = (g, none) := rfl

theorem feed_of_deferred {g : Grouping} (h : g.deferred = true) (lines : List Text) :
    g.feed lines = ({ g with queue := g.queue ++ lines }, none) := by
  simp [feed, h]

theorem feed_of_not_deferred {g : Grouping} (h : g.deferred = false) (lines : List Text) :
    g.feed lines = g.process lines := by
  simp [feed, h]

end Grouping

end BuildLog
