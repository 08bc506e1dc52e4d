import BuildLog.Change
import Std.Data.HashMap

/-!
# The view

What a display holds of the sections: it applies changes, and lets a reader fold sections. Sections
are found through a table of their positions, which every insertion brings up to date. Changes of a
section that the view does not have are ignored.

* `modify_of_unknown`: a section that is not there is not changed.
* `length_visible`: the lines on display are counted section by section.
-/

namespace BuildLog

/-- A section as it is displayed. -/
structure View.Entry where
  id : Nat
  attributes : Section.Attributes := {}
  isOpen : Bool := true
  hasToggle : Bool := false
  lines : Array Line := #[]
  deriving DecidableEq, Repr

namespace View.Entry

/-- Whether only the first line is shown. -/
def isFolded (e : Entry) : Bool := e.hasToggle && !e.isOpen

def visible (e : Entry) : List Line := if e.isFolded then e.lines.toList.take 1 else e.lines.toList

def visibleCount (e : Entry) : Nat := if e.isFolded then min 1 e.lines.size else e.lines.size

theorem length_visible (e : Entry) : e.visible.length = e.visibleCount := by
  unfold visible visibleCount
  split <;> simp

/-- The status of a section, once it has a verdict. -/
def status (e : Entry) : Option Section.Status := e.attributes.verdict.map (·.status)

def isTyped (e : Entry) : Bool := e.attributes.kind.isSome

end View.Entry

/-- The displayed sections and how they are folded. -/
structure View where
  entries : Array View.Entry := #[]
  /-- Where the section of an id stands. -/
  positions : Std.HashMap Nat Nat := {}
  /-- The number of batches applied. -/
  commits : Nat := 0
  /-- Whether all sections were last folded, rather than unfolded, together. -/
  collapsed : Bool := false

namespace View

def get? (v : View) (id : Nat) : Option Entry := v.positions[id]?.bind fun pos => v.entries[pos]?

/-- Enter positions for entries that stand one after the other. -/
def record (positions : Std.HashMap Nat Nat) (start : Nat) (entries : List Entry) :
    Std.HashMap Nat Nat :=
  (entries.zipIdx start).foldl (fun positions (e, pos) => positions.insert e.id pos) positions

/-- Where a section goes that is placed behind another: directly behind it, or to the end if there
is no such section. -/
def insertionPoint (v : View) (after : Option Nat) : Nat :=
  match after.bind (v.positions[·]?) with
  | some pos => pos + 1
  | none => v.entries.size

/-- Insert an entry at a position, at most at the end. -/
def insertAt (entries : Array Entry) (pos : Nat) (e : Entry) : Array Entry :=
  if h : pos < entries.size then entries.insertIdx pos e (by omega) else entries.push e

def appendSection (v : View) (id : Nat) (after : Option Nat) : View :=
  let pos := v.insertionPoint after
  let entries := insertAt v.entries pos { id := id }
  { v with
    entries := entries
    positions := record v.positions pos (entries.extract pos entries.size).toList }

/-- Change the section with an id, if there is one. -/
def modify (v : View) (id : Nat) (f : Entry → Entry) : View :=
  match v.positions[id]? with
  | some pos => { v with entries := v.entries.modify pos f }
  | none => v

def apply (v : View) : Change → View
  | .appendSection id after => v.appendSection id after
  | .appendLine id line => v.modify id fun e => { e with lines := e.lines.push line }
  | .setOpen id isOpen => v.modify id fun e => { e with isOpen := isOpen }
  | .setAttributes id attributes => v.modify id fun e => { e with attributes := attributes }
  | .attachToggle id => v.modify id fun e => { e with hasToggle := true }

/-- Apply a batch as a whole. -/
def commit (v : View) (b : Batch) : View :=
  b.changes.foldl apply { v with commits := v.commits + 1 }

def lineCount (v : View) : Nat := v.entries.toList.foldr (fun e n => e.lines.size + n) 0

/-- Whether any section has a kind, so that folding all sections means something. -/
def isFoldable (v : View) : Bool := v.entries.any (·.isTyped)

/-- Fold or unfold one section. A section without a toggle cannot be folded. The result says
whether anything was done. -/
def toggle (v : View) (id : Nat) : View × Bool :=
  match v.get? id with
  | some e => if e.hasToggle then (v.modify id fun e => { e with isOpen := !e.isOpen }, true)
    else (v, false)
  | none => (v, false)

/-- Fold all sections with a kind, or unfold them if they were folded together last. -/
def toggleAll (v : View) : View :=
  if v.isFoldable then
    { v with
      collapsed := !v.collapsed
      entries := v.entries.map fun e => if e.isTyped then { e with isOpen := v.collapsed } else e }
  else v

/-- The lines to display, each with its section. -/
def visible (v : View) : List (Entry × Line) :=
  v.entries.toList.flatMap fun e => e.visible.map (e, ·)

def visibleCount (v : View) : Nat := v.entries.toList.foldr (fun e n => e.visibleCount + n) 0

theorem length_visible (v : View) : v.visible.length = v.visibleCount := by
  unfold visible visibleCount
  induction v.entries.toList with
  | nil => rfl
  | cons e es ih => simp [Entry.length_visible, ih]

theorem modify_of_unknown {v : View} {id : Nat} (h : v.positions[id]? = none) (f : Entry → Entry) :
    v.modify id f = v := by
  simp [modify, h]

end View

end BuildLog
