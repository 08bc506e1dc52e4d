import BuildLog.Change

/-!
# Edits of a section

An edit says what becomes of a section and which changes tell a display about it. An edit that
leaves the section as it is tells nothing.

* `id_assignKind`, `id_detectStatus`, `id_markMultiline`, `id_write`, `id_close`: no edit gives a
  section another place.
-/

namespace BuildLog.Section

/-- What becomes of a section, and the changes that tell a display about it. -/
structure Edit where
  apply : Section → Section
  changes : Section → List Change

namespace Edit

/-- The change that tells a section's attributes. -/
def attributesChange (s : Section) : Change := .setAttributes s.id s.attributes

/-- Give a section its kind, once. -/
def assignKind (code : Option Code) : Edit :=
  let apply (s : Section) : Section :=
    match s.attributes.kind with
    | some _ => s
    | none => { s with attributes := { s.attributes with kind := some (Kind.ofCode? code) } }
  { apply := apply
    changes := fun s => if s.attributes.kind.isSome then [] else [attributesChange (apply s)] }

/-- The attributes of a section once a tagged line has been seen. A job that is killed writes no
line at the end of its task; the on-cancel task that starts while the task is still open stands
for it. -/
def detect (code : Option Code) (a : Attributes) : Attributes :=
  let killed := a.kind = some .task ∧ code = some .cancelTaskStart
  { a with
    errored := a.errored || signalsError code || killed
    verdict := Verdict.ofCode? code <|>
      (if killed then some ⟨.task, .cancelled⟩ else a.verdict) }

/-- Take a tagged line's word on how the section ended. -/
def detectStatus (code : Option Code) : Edit where
  apply s := { s with attributes := detect code s.attributes }
  changes s :=
    if detect code s.attributes = s.attributes then []
    else [.setAttributes s.id (detect code s.attributes)]

/-- Note that a section holds more than one line, once. -/
def markMultiline : Edit :=
  let apply (s : Section) : Section :=
    { s with attributes := { s.attributes with multiline := true } }
  { apply := apply
    changes := fun s =>
      if s.attributes.multiline then [] else [.attachToggle s.id, attributesChange (apply s)] }

def write (line : Line) : Edit where
  apply s := { s with lines := s.lines.push line }
  changes s := [.appendLine s.id line]

/-- Fold a section that is finished; a failed one stays open. -/
def close : Edit where
  apply s := { s with isOpen := s.isOpen && s.attributes.errored }
  changes s := if s.attributes.errored then [] else [.setOpen s.id false]

@[simp] theorem id_assignKind (code : Option Code) (s : Section) :
    ((assignKind code).apply s).id = s.id := by
  unfold assignKind
  dsimp only
  split <;> rfl

@[simp] theorem id_detectStatus (code : Option Code) (s : Section) :
    ((detectStatus code).apply s).id = s.id := rfl

@[simp] theorem id_markMultiline (s : Section) : (markMultiline.apply s).id = s.id := rfl

@[simp] theorem id_write (line : Line) (s : Section) : ((write line).apply s).id = s.id := rfl

@[simp] theorem id_close (s : Section) : (close.apply s).id = s.id := rfl

end Edit

end BuildLog.Section
