import BuildLog.Proofs.Console.Mirror
import BuildLog.Proofs.Tree.Growth
import BuildLog.Proofs.View.Replay

/-!
# A tree under any cursors

A tree can be edited through cursors at any of its sections, in any order, and its changes can be
handed over at any moment, with any section set apart that the receiver knows already. Whatever is
done, a view that commits the batches shows the tree, and what has been noted of a section stays
noted.

* `Section.Lasts`: what no edit takes back.
* `Tree.ToldOnce`: the toggle of a section is told when it gets its second line, and only then.
* `Journal.Sound.step`: what the batches handed over and the changes still recorded make of a view.
* `Journal.run_complete`: what holds of every use of cursors.
-/

namespace BuildLog

/-! ## What edits keep -/

namespace Section

/-- A section has only grown, and what was noted of it still is: its kind, that it failed, that it
holds more than one line, and that it was closed. -/
structure Lasts (s s' : Section) : Prop where
  grows : s.Grows s'
  errored : s.attributes.errored = true → s'.attributes.errored = true
  multiline : s.attributes.multiline = true → s'.attributes.multiline = true
  isOpen : s'.isOpen = true → s.isOpen = true

theorem Lasts.refl (s : Section) : s.Lasts s := ⟨.refl s, fun h => h, fun h => h, fun h => h⟩

theorem Lasts.trans {s s' s'' : Section} (h : s.Lasts s') (h' : s'.Lasts s'') : s.Lasts s'' where
  grows := h.grows.trans h'.grows
  errored := h'.errored ∘ h.errored
  multiline := h'.multiline ∘ h.multiline
  isOpen := h.isOpen ∘ h'.isOpen

variable {e : Edit}

/-- No edit through a cursor takes back what was noted of a section. -/
theorem Edit.ByCursor.lasts (he : e.ByCursor) (s : Section) : s.Lasts (e.apply s) := by
  have hGrows := he.grows s
  cases he with
  | assignKind code =>
    cases hKind : s.attributes.kind <;> exact ⟨hGrows, by simp [Edit.assignKind, hKind],
      by simp [Edit.assignKind, hKind], by simp [Edit.assignKind, hKind]⟩
  | detectStatus code =>
    refine ⟨hGrows, fun hErrored => ?_, fun h => h, fun h => h⟩
    simp [Edit.detectStatus, Edit.detect, hErrored]
  | markMultiline => exact ⟨hGrows, fun h => h, fun _ => rfl, fun h => h⟩
  | write line => exact ⟨hGrows, fun h => h, fun h => h, fun h => h⟩
  | close =>
    refine ⟨hGrows, fun h => h, fun h => h, fun hOpen => ?_⟩
    exact (Bool.and_eq_true_iff.mp hOpen).1

/-- An edit tells the toggle of a section exactly when it notes the second line. -/
theorem Edit.ByCursor.count_toggle (he : e.ByCursor) (s : Section) :
    s.attributes.multiline.toNat + (e.changes s).count (.attachToggle s.id) =
      (e.apply s).attributes.multiline.toNat := by
  cases he with
  | assignKind code =>
    cases hKind : s.attributes.kind <;> simp [Edit.assignKind, Edit.attributesChange, hKind]
  | detectStatus code =>
    simp only [Edit.detectStatus]
    split <;> simp [Edit.detect]
  | markMultiline =>
    cases hMany : s.attributes.multiline <;>
      simp [Edit.markMultiline, Edit.attributesChange, hMany]
  | write line => simp [Edit.write]
  | close =>
    simp only [Edit.close]
    split <;> simp

end Section

namespace Tree

/-- Whether the section at a place holds more than one line. -/
def isMultiline (t : Tree) (id : Nat) : Bool := (t.get? id).any (·.attributes.multiline)

/-- Among the changes told before and those of a tree, each section with more than one line has its
toggle once, and no other section has. -/
def ToldOnce (history : List Change) (t : Tree) : Prop :=
  ∀ id, (history ++ t.pending.toList).count (.attachToggle id) = (t.isMultiline id).toNat

variable {history : List Change} {t : Tree}

/-- An edit of one section attaches no toggle to another. -/
theorem count_editChanges_of_ne (hPlaced : Section.Placed t.sections) {e : Section.Edit}
    (he : e.ByCursor) {place id : Nat} (hNe : id ≠ place) :
    (t.editChanges place e).count (.attachToggle id) = 0 := by
  refine List.count_eq_zero.mpr fun hMem => ?_
  exact hNe (hPlaced.editChanges he hMem).1

/-- An edit attaches a toggle exactly when it makes a section hold more than one line. -/
theorem ToldOnce.edit (h : t.ToldOnce history) (hPlaced : Section.Placed t.sections) (place : Nat)
    {e : Section.Edit} (he : e.ByCursor) : (t.edit place e).ToldOnce history := by
  intro id
  have hBefore := h id
  rw [pending_edit, ← List.append_assoc, List.count_append, hBefore]
  by_cases hId : id = place
  · subst hId
    cases hs : t.sections[id]? with
    | none => simp [isMultiline, get?, sections_edit, Array.getElem?_modify, editChanges, hs]
    | some s =>
      have hCount := he.count_toggle s
      rw [hPlaced id s hs] at hCount
      simpa [isMultiline, get?, sections_edit, Array.getElem?_modify, editChanges, hs] using hCount
  · have hNe : place ≠ id := Ne.symm hId
    simp [count_editChanges_of_ne hPlaced he hId, isMultiline, get?, sections_edit,
      Array.getElem?_modify, hNe]

theorem ToldOnce.append (h : t.ToldOnce history) : t.append.ToldOnce history := by
  intro id
  have hBefore := h id
  rw [pending_append, ← List.append_assoc, List.count_append, hBefore]
  simp only [isMultiline, get?, sections_append, Array.getElem?_push]
  split
  · next hNew => simp [hNew]
  · simp

/-- Handing changes over moves toggles from those recorded to those told. -/
theorem ToldOnce.takeFlush (h : t.ToldOnce history) (continued : Option Nat) :
    (t.takeFlush continued).1.ToldOnce (history ++ (t.takeFlush continued).2.changes) := by
  intro id
  have hPerm : (t.takeFlush continued).2.changes.Perm t.pending.toList :=
    Batch.changes_ofChanges_perm continued t.pending.toList
  have hBefore := h id
  rw [List.count_append] at hBefore
  simpa [hPerm.count_eq, isMultiline, get?] using hBefore

/-- Where something leaves the sections of a tree: all but one's own as they were, and that one
with what was noted of it; and so many new ones behind them. -/
structure Touches (t : Tree) (own : Option Nat) (begun : Nat) (t' : Tree) : Prop where
  size_eq : t'.sections.size = t.sections.size + begun
  others : ∀ i, own ≠ some i → i < t.sections.size → t'.sections[i]? = t.sections[i]?
  lasts : ∀ (i : Nat) (s : Section), t.sections[i]? = some s →
    ∃ s', t'.sections[i]? = some s' ∧ s.Lasts s'
  new : ∀ i, t.sections.size ≤ i → i < t'.sections.size → t'.sections[i]? = some { id := i }

theorem touches_of_eq (own : Option Nat) {t' : Tree} (h : t'.sections = t.sections) :
    t.Touches own 0 t' where
  size_eq := by rw [h, Nat.add_zero]
  others i _ _ := by rw [h]
  lasts i s hs := ⟨s, by rw [h, hs], .refl s⟩
  new i hLe hLt := by
    rw [h] at hLt
    omega

theorem touches_edit (t : Tree) (place : Nat) {e : Section.Edit} (he : e.ByCursor) :
    t.Touches (some place) 0 (t.edit place e) where
  size_eq := t.size_edit place e
  others i hOther _ := by
    have hNe : place ≠ i := fun hEq => hOther (congrArg some hEq)
    rw [sections_edit, Array.getElem?_modify, if_neg hNe]
  lasts i s hs := by
    rw [sections_edit, Array.getElem?_modify, hs]
    split
    · exact ⟨_, rfl, he.lasts s⟩
    · exact ⟨s, rfl, .refl s⟩
  new i hLe hLt := by
    rw [size_edit] at hLt
    omega

theorem Touches.append {own : Option Nat} {t' : Tree} (h : t.Touches own 0 t') :
    t.Touches own 1 t'.append := by
  have hSize : t'.sections.size = t.sections.size := h.size_eq
  have hOld : ∀ i, i < t.sections.size → t'.append.sections[i]? = t'.sections[i]? := by
    intro i hLt
    rw [sections_append, Array.getElem?_push, if_neg (by omega)]
  refine ⟨by rw [sections_append, Array.size_push, hSize], ?_, ?_, ?_⟩
  · intro i hOther hLt
    rw [hOld i hLt]
    exact h.others i hOther hLt
  · intro i s hs
    rw [hOld i (Array.getElem?_eq_some_iff.mp hs).1]
    exact h.lasts i s hs
  · intro i hLe hLt
    rw [sections_append, Array.size_push] at hLt
    obtain rfl : i = t'.sections.size := by omega
    rw [sections_append, Array.getElem?_push, if_pos rfl]

end Tree

/-! ## Cursors -/

/-- A tree that is edited through cursors, and the batches that it has handed over. -/
structure Journal where
  tree : Tree := {}
  batches : List Batch := []
  deriving DecidableEq, Repr

namespace Journal

/-- What a cursor can do to the section it points at. -/
inductive Act where
  | assignKind (code : Option Code)
  | detectStatus (code : Option Code)
  | markMultiline
  | write (line : Line)
  deriving DecidableEq, Repr

def Act.edit : Act → Section.Edit
  | .assignKind code => .assignKind code
  | .detectStatus code => .detectStatus code
  | .markMultiline => .markMultiline
  | .write line => .write line

theorem Act.edit_byCursor (a : Act) : a.edit.ByCursor := by
  cases a with
  | assignKind code => exact .assignKind code
  | detectStatus code => exact .detectStatus code
  | markMultiline => exact .markMultiline
  | write line => exact .write line

/-- What is done to a journal. A cursor is the place of the section it points at, and there may be
several of them, also at sections that have been closed. -/
inductive Step where
  /-- Set a cursor at a new section. -/
  | begin
  | act (cursor : Nat) (a : Act)
  /-- Close the section of a cursor, and set one at a new section. -/
  | close (cursor : Nat)
  /-- Hand over the changes recorded since the last time, those of one section first. -/
  | flush (continued : Option Nat)
  deriving DecidableEq, Repr

/-- The cursor that a step goes through. -/
def Step.cursor? : Step → Option Nat
  | .act cursor _ | .close cursor => some cursor
  | .begin | .flush _ => none

/-- The number of sections that a step begins. -/
def Step.begun : Step → Nat
  | .begin | .close _ => 1
  | .act _ _ | .flush _ => 0

def step (j : Journal) : Step → Journal
  | .begin => { j with tree := j.tree.append }
  | .act cursor a => { j with tree := j.tree.edit cursor a.edit }
  | .close cursor => { j with tree := j.tree.closeAndAppend cursor }
  | .flush continued =>
    let (tree, batch) := j.tree.takeFlush continued
    ⟨tree, j.batches ++ [batch]⟩

def run (j : Journal) (steps : List Step) : Journal := steps.foldl step j

/-- Whether a batch handed over has begun a section. -/
def delivered (j : Journal) (id : Nat) : Bool :=
  j.batches.any fun b => b.changes.any fun c => c.begins && c.target == id

/-- Whether a step may be taken: only a section that has been delivered is set apart. -/
def permits (j : Journal) : Step → Bool
  | .flush (some id) => j.delivered id
  | _ => true

def permitsAll (j : Journal) : List Step → Bool
  | [] => true
  | s :: steps => j.permits s && (j.step s).permitsAll steps

/-- The view that has committed all batches. -/
def display (j : Journal) : View := j.batches.foldl View.commit {}

/-- All changes recorded so far, handed over or not. -/
def told (j : Journal) : List Change := j.batches.flatMap Batch.changes ++ j.tree.pending.toList

theorem display_flush (j : Journal) (continued : Option Nat) :
    (j.step (.flush continued)).display =
      j.display.commit (.ofChanges continued j.tree.pending.toList) := by
  simp [step, display, Tree.takeFlush]

/-! ## Each step -/

/-- What batches and recorded changes have told of a tree. -/
structure Sound (j : Journal) : Prop where
  shown : j.tree.ShownBy True j.display
  indexed : j.display.Indexed
  leads : Change.Leads j.display.entries.size j.tree.pending.toList j.tree.sections.size
  delivered : ∀ id, j.delivered id = true → id < j.display.entries.size
  toldOnce : j.tree.ToldOnce (j.batches.flatMap Batch.changes)

theorem sound_new : Sound {} where
  shown := View.mirrors_empty
  indexed := View.indexed_empty
  leads := .nil 0
  delivered := by simp [Journal.delivered]
  toldOnce := by
    intro id
    simp [Tree.isMultiline, Tree.get?]

namespace Sound

variable {j : Journal}

theorem placed (h : j.Sound) : Section.Placed j.tree.sections := by
  have hMirrors : View.Mirrors True _ j.tree.sections := h.shown
  exact hMirrors.placed

theorem edit (h : j.Sound) (cursor : Nat) {e : Section.Edit} (he : e.ByCursor) :
    Sound { j with tree := j.tree.edit cursor e } where
  shown := h.shown.edit cursor he
  indexed := h.indexed
  leads := by
    rw [Tree.pending_edit, Tree.size_edit]
    refine h.leads.append (.of_about fun c hc => ?_)
    obtain ⟨hTarget, hAbout⟩ := h.placed.editChanges he hc
    refine ⟨hAbout, ?_⟩
    rw [hTarget]
    by_contra hNone
    simp [Tree.editChanges, Array.getElem?_eq_none (Nat.le_of_not_lt hNone)] at hc
  delivered := h.delivered
  toldOnce := h.toldOnce.edit h.placed cursor he

theorem append (h : j.Sound) : Sound { j with tree := j.tree.append } where
  shown := h.shown.append
  indexed := h.indexed
  leads := by
    rw [Tree.pending_append, h.placed.appendSection_eq, Tree.sections_append, Array.size_push]
    exact h.leads.append (.beginning (.nil _))
  delivered := h.delivered
  toldOnce := h.toldOnce.append

/-- A batch handed over makes the view mirror the tree, whichever delivered section it sets
apart. -/
theorem flush_mirrors (h : j.Sound) {continued : Option Nat}
    (hPermitted : j.permits (.flush continued) = true) :
    (j.step (.flush continued)).display.Mirrors True j.tree.sections := by
  have hContinued : ∀ id, continued = some id → id < j.display.entries.size := by
    rintro id rfl
    exact h.delivered id hPermitted
  obtain ⟨hIndexed, hEntries⟩ := h.indexed.commit_ofChanges h.leads hContinued
  rw [display_flush]
  exact View.Mirrors.congr h.shown hIndexed hEntries

theorem flush (h : j.Sound) {continued : Option Nat}
    (hPermitted : j.permits (.flush continued) = true) :
    (j.step (.flush continued)).Sound := by
  have hMirrors := h.flush_mirrors hPermitted
  have hSize : (j.step (.flush continued)).display.entries.size = j.tree.sections.size :=
    hMirrors.size_eq
  refine ⟨hMirrors, hMirrors.indexed, ?_, ?_, ?_⟩
  · rw [hSize]
    exact .nil _
  · intro id hDelivered
    rw [hSize]
    have hParts : j.delivered id = true ∨
        ∃ c ∈ (Batch.ofChanges continued j.tree.pending.toList).changes,
          c.begins = true ∧ c.target = id := by
      simpa [Journal.delivered, step, Tree.takeFlush] using hDelivered
    obtain hEarlier | ⟨c, hc, hBegins, rfl⟩ := hParts
    · exact Nat.lt_of_lt_of_le (h.delivered id hEarlier) h.leads.le
    · have hRecorded := (Batch.changes_ofChanges_perm _ _).mem_iff.mp hc
      exact (h.leads.target_of_begins hRecorded hBegins).2
  · simpa [step] using h.toldOnce.takeFlush continued

theorem step (h : j.Sound) {s : Step} (hPermitted : j.permits s = true) : (j.step s).Sound := by
  cases s with
  | begin => exact h.append
  | act cursor a => exact h.edit cursor a.edit_byCursor
  | close cursor => exact (h.edit cursor .close).append
  | flush continued => exact h.flush hPermitted

theorem run (h : j.Sound) {steps : List Step} (hPermitted : j.permitsAll steps = true) :
    (j.run steps).Sound := by
  induction steps generalizing j with
  | nil => exact h
  | cons s steps ih =>
    obtain ⟨hFirst, hRest⟩ := Bool.and_eq_true_iff.mp hPermitted
    exact ih (h.step hFirst) hRest

end Sound

/-- A step only touches the section of its cursor, and the ones it begins. -/
theorem step_touches (j : Journal) (s : Step) :
    j.tree.Touches s.cursor? s.begun (j.step s).tree := by
  cases s with
  | begin => exact (Tree.touches_of_eq none rfl).append
  | act cursor a => exact j.tree.touches_edit cursor a.edit_byCursor
  | close cursor => exact (j.tree.touches_edit cursor .close).append
  | flush continued => exact Tree.touches_of_eq none rfl

/-- What was noted of a section stays noted, whatever is done to the journal. -/
theorem run_lasts (j : Journal) (steps : List Step) {i : Nat} {s : Section}
    (hs : j.tree.sections[i]? = some s) :
    ∃ s', (j.run steps).tree.sections[i]? = some s' ∧ s.Lasts s' := by
  induction steps generalizing j s with
  | nil => exact ⟨s, hs, .refl s⟩
  | cons first steps ih =>
    obtain ⟨s', hs', hFirst⟩ := (j.step_touches first).lasts i s hs
    obtain ⟨s'', hs'', hRest⟩ := ih (j.step first) hs'
    exact ⟨s'', hs'', hFirst.trans hRest⟩

/-- What holds of a journal at every moment, and of whatever is done to it next. -/
structure Complete (j : Journal) : Prop where
  /-- Each section bears its place as its id. -/
  placed : Section.Placed j.tree.sections
  /-- Behind the next batch, the view shows the sections. -/
  shown : ∀ continued, j.permits (.flush continued) = true →
    (j.step (.flush continued)).display.entries = j.tree.sections.map .ofSection
  toldOnce : ∀ id, j.told.count (.attachToggle id) = if j.tree.isMultiline id then 1 else 0
  touches : ∀ s, j.tree.Touches s.cursor? s.begun (j.step s).tree
  lasts : ∀ (steps : List Step) (i : Nat) (s : Section), j.tree.sections[i]? = some s →
    ∃ s', (j.run steps).tree.sections[i]? = some s' ∧ s.Lasts s'

/-- **A view is told everything, however cursors are used**: behind every batch it shows the tree,
section by section; the toggle of a section is told once if the section holds more than one line,
and else not at all; a step touches no section but its cursor's and the one it begins; and what has
been noted of a section stays noted. -/
theorem run_complete (steps : List Step) (h : permitsAll {} steps = true) :
    (run {} steps).Complete := by
  have hSound : (run {} steps).Sound := sound_new.run h
  refine ⟨hSound.placed, fun continued hPermitted => ?_, fun id => ?_, fun s => ?_, ?_⟩
  · exact (hSound.flush_mirrors hPermitted).entries_eq_map
  · rw [told, hSound.toldOnce id]
    cases (run {} steps).tree.isMultiline id <;> rfl
  · exact step_touches _ s
  · intro later i s hs
    exact run_lasts _ later hs

/-- Two cursors in use at once: the first section fails, is closed, and gets its toggle behind the
second one's first line; these changes are then handed over ahead of that line. -/
theorem run_complete_of_two_cursors :
    let line : Line := .ofFramed 1 .basic (.ofRaw ['a'])
    let steps : List Step := [.begin, .flush none, .act 0 (.detectStatus (some .fail)), .close 0,
      .act 1 (.write line), .act 0 .markMultiline]
    let j := run {} steps
    permitsAll {} steps = true ∧ j.permits (.flush (some 0)) = true ∧
      (j.tree.takeFlush (some 0)).2.changes ≠ j.tree.pending.toList ∧ j.Complete := by
  intro line steps j
  have hSteps : permitsAll {} steps = true := by
    decide +kernel
  refine ⟨hSteps, ?_, ?_, run_complete steps hSteps⟩
  · decide +kernel
  · decide +kernel

end Journal

end BuildLog
