import BuildLog.Section.Edit

/-!
# The section tree

All sections of a log in order, and the changes not yet handed to a display. A section's place is
its index, so places are never used twice. Sections are edited through their place; the section
that receives lines is the one a cursor, a place, points at.

* `sections_edit`, `size_edit`: an edit touches its own section only.
* `sections_append`: a new section goes to the end.
* `pending_takeFlush`: handing over leaves nothing behind.
-/

namespace BuildLog

/-- The sections of a log, and the changes recorded since the last batch was handed over. -/
structure Tree where
  sections : Array Section := #[]
  pending : Array Change := #[]
  deriving DecidableEq, Repr

namespace Tree

def get? (t : Tree) (id : Nat) : Option Section := t.sections[id]?

def last? (t : Tree) : Option Section := t.sections.back?

/-- The kind of the section at a place, once it has one. -/
def kind? (t : Tree) (id : Nat) : Option Section.Kind := (t.get? id).bind (·.attributes.kind)

/-- Whether a tag continues the section at a place; nothing continues a section without a kind. -/
def continues (t : Tree) (id : Nat) (code : Option Code) : Bool :=
  match t.kind? id with
  | some kind => kind.admits code
  | none => false

/-- Start a section behind all others. -/
def append (t : Tree) : Tree where
  sections := t.sections.push { id := t.sections.size }
  pending := t.pending.push (.appendSection t.sections.size (t.last?.map (·.id)))

/-- The place that the next section will have. -/
def nextId (t : Tree) : Nat := t.sections.size

/-- Edit the section at a place and record the changes; there is nothing to edit at other places. -/
def edit (t : Tree) (id : Nat) (e : Section.Edit) : Tree :=
  let changes : List Change := match t.sections[id]? with
    | some s => e.changes s
    | none => []
  { sections := t.sections.modify id e.apply
    pending := t.pending ++ changes }

/-- Fold the section at a place, unless it failed, and start the next one. -/
def closeAndAppend (t : Tree) (id : Nat) : Tree := (t.edit id .close).append

/-- Hand over the recorded changes, those of the section `continued` first. -/
def takeFlush (t : Tree) (continued : Option Nat) : Tree × Batch :=
  ({ t with pending := #[] }, Batch.ofChanges continued t.pending.toList)

theorem sections_edit (t : Tree) (id : Nat) (e : Section.Edit) :
    (t.edit id e).sections = t.sections.modify id e.apply := rfl

@[simp] theorem size_edit (t : Tree) (id : Nat) (e : Section.Edit) :
    (t.edit id e).sections.size = t.sections.size := by
  simp [sections_edit]

theorem sections_append (t : Tree) :
    t.append.sections = t.sections.push { id := t.sections.size } := rfl

@[simp] theorem pending_takeFlush (t : Tree) (continued : Option Nat) :
    (t.takeFlush continued).1.pending = #[] := rfl

@[simp] theorem sections_takeFlush (t : Tree) (continued : Option Nat) :
    (t.takeFlush continued).1.sections = t.sections := rfl

end Tree

end BuildLog
