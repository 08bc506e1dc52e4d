import BuildLog.Proofs.Grouping.Run
import BuildLog.Proofs.Tree.Order

/-!
# Handing changes over

The changes recorded while lines are read are handed over as one batch, in two parts: those of the
section that was last when the reading began, and those of the sections begun since. Changes are
recorded in the order of their sections, so the batch has them as they were recorded; and over all
batches every section is begun, behind the one before, ahead of the first change about it.

* `Change.Introduced`: changes that begin sections in order, each before any change about it.
* `Grouping.changes_process`: a batch has the changes of its lines as they were recorded.
* `Grouping.Handed.act`: what one input hands over, and what all inputs so far have.
* `Grouping.batches_ordered`: the same of every run.
-/

namespace BuildLog

/-! ## Changes that begin sections -/

namespace Change

/-- The change that begins the section at a place, behind the one before. -/
def beginning : Nat → Change
  | 0 => .appendSection 0 none
  | id + 1 => .appendSection (id + 1) (some id)

/-- Some changes begin `n` sections in order, and none is about a section that is not begun yet. -/
structure Introduced (changes : List Change) (n : Nat) : Prop where
  begun : changes.filter begins = (List.range n).map beginning
  known : ∀ k c, changes[k]? = some c → c.begins = false → beginning c.target ∈ changes.take k

theorem introduced_nil : Introduced [] 0 := ⟨rfl, by simp⟩

theorem begins_beginning (id : Nat) : (beginning id).begins = true := by cases id <;> rfl

namespace Introduced

variable {changes : List Change} {n : Nat}

theorem beginning_mem (h : Introduced changes n) {id : Nat} (hLt : id < n) :
    beginning id ∈ changes := by
  have hMem : beginning id ∈ changes.filter begins := by
    rw [h.begun]
    exact List.mem_map_of_mem (List.mem_range.mpr hLt)
  exact (List.mem_filter.mp hMem).1

/-- A change behind known ones keeps them known. -/
theorem known_concat (h : Introduced changes n) {d : Change}
    (hd : d.begins = false → beginning d.target ∈ changes) :
    ∀ k c, (changes ++ [d])[k]? = some c → c.begins = false →
      beginning c.target ∈ (changes ++ [d]).take k := by
  intro k c hc hAbout
  obtain ⟨hLt, hc⟩ | ⟨rfl, rfl⟩ := getElem?_concat_cases hc
  · rw [List.take_append_of_le_length (Nat.le_of_lt hLt)]
    exact h.known k c hc hAbout
  · rw [List.take_left]
    exact hd hAbout

theorem concat_about (h : Introduced changes n) {d : Change} (hAbout : d.begins = false)
    (hLt : d.target < n) : Introduced (changes ++ [d]) n where
  begun := by simp [hAbout, h.begun]
  known := h.known_concat fun _ => h.beginning_mem hLt

theorem concat_beginning (h : Introduced changes n) :
    Introduced (changes ++ [beginning n]) (n + 1) where
  begun := by simp [begins_beginning, h.begun, List.range_succ]
  known := h.known_concat fun hAbout => by simp [begins_beginning] at hAbout

/-- Any number of changes about sections already begun may follow. -/
theorem append_about (h : Introduced changes n) {later : List Change}
    (hAbout : ∀ d ∈ later, d.begins = false ∧ d.target < n) : Introduced (changes ++ later) n := by
  induction later using List.reverseRecOn with
  | nil => simpa using h
  | append_singleton later d ih =>
    obtain ⟨hBegins, hLt⟩ := hAbout d (by simp)
    rw [← List.append_assoc]
    exact (ih fun c hc => hAbout c (by simp [hc])).concat_about hBegins hLt

end Introduced

end Change

/-- The change that tells a new section begins it behind the last one. -/
theorem Section.Placed.appendSection_eq {t : Tree} (h : Placed t.sections) :
    .appendSection t.sections.size (t.last?.map (·.id)) = Change.beginning t.sections.size := by
  obtain hEmpty | ⟨hSize, hLast⟩ := h.back?_cases
  · simp [hEmpty, Tree.last?, Change.beginning]
  · obtain ⟨n, hn⟩ := Nat.exists_eq_add_of_lt hSize
    rw [Tree.last?, hLast, hn]
    simp [Change.beginning]

namespace Tree

/-- The changes handed over before and those of a tree introduce its sections. -/
structure Introduces (history : List Change) (t : Tree) : Prop where
  placed : Section.Placed t.sections
  introduced : Change.Introduced (history ++ t.pending.toList) t.sections.size

/-- Edits and new sections record their changes so that every section is begun ahead of them. -/
theorem kept_introduces (history : List Change) : Kept (Introduces history) where
  edit {t last e} hSize he h := by
    refine ⟨h.placed.modify last he.id_apply, ?_⟩
    rw [pending_edit, size_edit, ← List.append_assoc]
    refine h.introduced.append_about fun c hc => ?_
    obtain ⟨hTarget, hBegins⟩ := h.placed.editChanges he hc
    exact ⟨hBegins, by omega⟩
  append {t} h := by
    refine ⟨h.placed.push, ?_⟩
    rw [pending_append, h.placed.appendSection_eq, ← List.append_assoc, sections_append,
      Array.size_push]
    exact h.introduced.concat_beginning

end Tree

namespace Grouping

variable {P : List Section → Section → List Text → Prop}

/-! ## One batch -/

/-- The changes that are recorded while lines are read, in the order of recording. -/
def recorded (g : Grouping) (lines : List Text) : List Change :=
  (g.read lines).tree.pending.toList

/-- A batch begins at the last section, with no changes but that of a section begun for it. -/
theorem Has.start_ordered {g : Grouping} {raws : List Text} (h : g.Has P raws)
    (hPlaced : Section.Placed g.tree.sections) : g.start.tree.Ordered g.start.cursor := by
  have hPending := h.pending
  have hEnd := h.start_atEnd
  cases hCursor : g.cursor with
  | none =>
    simp only [start, hCursor]
    refine ⟨hPlaced.push, ?_, ?_, ?_⟩
    · simp [Tree.sections_append, Tree.nextId]
    · simp [Tree.pending_append, hPending]
    · simp [Tree.pending_append, hPending, Change.target, Tree.nextId, Tree.sections_append]
  | some cursor =>
    simp only [start, hCursor, Reading.AtEnd] at hEnd ⊢
    exact ⟨hPlaced, by omega, by simp [hPending], by simp [hPending]⟩

theorem Has.read_ordered {g : Grouping} {raws : List Text} (h : g.Has P raws)
    (hPlaced : Section.Placed g.tree.sections) (lines : List Text) :
    (g.read lines).tree.Ordered g.start.cursor :=
  Reading.foldl_next_kept (Tree.kept_ordered _) h.start_atEnd (h.start_ordered hPlaced) lines

/-- A batch has the changes of its lines as they were recorded. -/
theorem changes_process {g : Grouping} {raws : List Text} (h : g.Has P raws)
    (hPlaced : Section.Placed g.tree.sections) (lines : List Text) {b : Batch}
    (hb : (g.process lines).2 = some b) : b.changes = g.recorded lines := by
  cases lines with
  | nil => simp at hb
  | cons raw lines =>
    have hOrdered := h.read_ordered hPlaced (raw :: lines)
    obtain rfl := Option.some.inj hb
    exact Batch.changes_ofChanges hOrdered.sorted fun c hc => (hOrdered.within c hc).1

/-- A batch is made of recorded changes: those of the section that was last before, section 0 if
there was none, and those of the sections begun since. -/
structure HandsOver (before after : Tree) (recorded : List Change) (b : Batch) : Prop where
  continued : b.continued = some ((before.last?.map (·.id)).getD 0)
  continuation : ∀ c ∈ b.continuation, some c.target = b.continued
  appended : ∀ c ∈ b.appended, before.sections.size ≤ c.target ∧ c.target < after.sections.size
  changes : b.changes = recorded

/-- A reading starts at the last section of the tree, or begins the first. -/
theorem Has.start_cursor {g : Grouping} {raws : List Text} (h : g.Has P raws)
    (hPlaced : Section.Placed g.tree.sections) :
    g.start.cursor = (g.tree.last?.map (·.id)).getD 0 ∧
      g.tree.sections.size ≤ g.start.cursor + 1 := by
  obtain ⟨-, hSections, hCursor, -⟩ | ⟨closed, s, hEnds, hCursor, -, -⟩ := h.sections
  · simp [start, hCursor, hSections, Tree.nextId, Tree.last?]
  · have hId : s.id = closed.length := hPlaced closed.length s (by simp [hEnds.getElem?])
    simp [start, hCursor, Tree.last?, hEnds.back?, hId, hEnds.size_eq]

/-- A batch holds the changes of its lines as they were recorded, the parts split at the section
that was last before. -/
theorem process_handsOver {g : Grouping} {raws : List Text} (h : g.Has P raws)
    (hPlaced : Section.Placed g.tree.sections) {lines : List Text} {b : Batch}
    (hb : (g.process lines).2 = some b) :
    HandsOver g.tree (g.process lines).1.tree (g.recorded lines) b := by
  have hChanges := changes_process h hPlaced lines hb
  cases lines with
  | nil => simp at hb
  | cons raw lines =>
    obtain ⟨hLast, hSize⟩ := h.start_cursor hPlaced
    have hOrdered := h.read_ordered hPlaced (raw :: lines)
    obtain rfl := Option.some.inj hb
    refine ⟨congrArg some hLast, ?_, ?_, hChanges⟩
    · intro c hc
      exact of_decide_eq_true (List.mem_filter.mp hc).2
    · intro c hc
      obtain ⟨hRecorded, hOther⟩ := List.mem_filter.mp hc
      have hWithin := hOrdered.within c hRecorded
      have hNe : c.target ≠ g.start.cursor := by simpa using hOther
      exact ⟨by omega, hWithin.2⟩

/-- What lines hand over continues what was handed over before them. -/
theorem process_introduces {g : Grouping} {raws : List Text} {history : List Change}
    (hHas : g.Has P raws) (h : g.tree.Introduces history) (lines : List Text) :
    (g.process lines).1.tree.Introduces
      (history ++ (g.process lines).2.toList.flatMap Batch.changes) := by
  cases lines with
  | nil => simpa using h
  | cons raw lines =>
    have hRead := read_kept (Tree.kept_introduces history) hHas h (raw :: lines)
    have hChanges : Batch.changes _ = g.recorded (raw :: lines) :=
      changes_process hHas h.placed (raw :: lines) rfl
    refine ⟨hRead.placed, ?_⟩
    simp only [process, List.isEmpty_cons, Bool.false_eq_true, if_false, Tree.takeFlush,
      Option.toList_some, List.flatMap_singleton, List.append_nil]
    rw [hChanges]
    exact hRead.introduced

/-! ## All inputs -/

/-- The batches that are handed over, one after the other. -/
def handedOver (g : Grouping) : List Input → List Batch
  | [] => []
  | i :: inputs => (g.act i).2.toList ++ (g.act i).1.handedOver inputs

theorem handedOver_concat (g : Grouping) (inputs : List Input) (i : Input) :
    g.handedOver (inputs ++ [i]) = g.handedOver inputs ++ ((g.run inputs).act i).2.toList := by
  induction inputs generalizing g with
  | nil => simp [handedOver, run]
  | cons j inputs ih => simp [handedOver, ih, run]

theorem due_of_deferred_act {g : Grouping} {i : Input} (h : (g.act i).1.deferred = true) :
    g.due i = [] := by
  rw [deferred_act] at h
  cases i with
  | lines batch => simp_all [due]
  | release => simp at h

/-- Nothing is handed over before the first release. -/
theorem handedOver_of_deferred {g : Grouping} {inputs : List Input}
    (h : (g.run inputs).deferred = true) : g.handedOver inputs = [] := by
  induction inputs generalizing g with
  | nil => rfl
  | cons i inputs ih =>
    have hRest : ((g.act i).1.run inputs).deferred = true := h
    have hFirst : (g.act i).1.deferred = true := by
      rw [deferred_run] at hRest
      exact (Bool.and_eq_true_iff.mp hRest).1
    have hNone : (g.act i).2 = none := by
      rw [act_eq_process, due_of_deferred_act hFirst]
      rfl
    simp [handedOver, hNone, ih hRest]

/-- A grouping between two inputs, and the changes that it has handed over. -/
structure Handed (g : Grouping) (history : List Change) : Prop where
  has : ∃ raws, g.Has (fun _ _ _ => True) raws
  introduces : g.tree.Introduces history

theorem handed_new (deferred : Bool) : Handed { deferred := deferred } [] where
  has := ⟨[], rfl, .inl ⟨rfl, rfl, rfl, rfl⟩⟩
  introduces := ⟨Section.placed_empty, Change.introduced_nil⟩

theorem Handed.act {g : Grouping} {history : List Change} (h : g.Handed history) (i : Input) :
    (g.act i).1.Handed (history ++ (g.act i).2.toList.flatMap Batch.changes) := by
  obtain ⟨raws, hHas⟩ := h.has
  refine ⟨⟨_, act_has invariant_true hHas i⟩, ?_⟩
  rw [act_eq_process]
  exact process_introduces (hHas.prepare i) (by simpa using h.introduces) (g.due i)

theorem run_handed (deferred : Bool) (inputs : List Input) :
    (run { deferred := deferred } inputs).Handed
      ((handedOver { deferred := deferred } inputs).flatMap Batch.changes) := by
  induction inputs using List.reverseRecOn with
  | nil => exact handed_new deferred
  | append_singleton inputs i ih =>
    rw [handedOver_concat, List.flatMap_append]
    simpa [run] using ih.act i

/-- An input has lines read if it brings some that are not held back, or frees some. -/
def Reads (g : Grouping) : Input → Prop
  | .lines batch => g.deferred = false ∧ batch ≠ []
  | .release => g.queue ≠ []

theorem due_ne_nil_iff (g : Grouping) (i : Input) : g.due i ≠ [] ↔ g.Reads i := by
  cases i with
  | lines batch => cases hDeferred : g.deferred <;> simp [due, Reads, hDeferred]
  | release => rfl

/-- A batch is handed over exactly when lines are read. -/
theorem isSome_act (g : Grouping) (i : Input) : (g.act i).2.isSome ↔ g.Reads i := by
  rw [act_eq_process, process, ← due_ne_nil_iff]
  cases g.due i <;> simp

theorem Handed.act_handsOver {g : Grouping} {history : List Change} (h : g.Handed history)
    {i : Input} {b : Batch} (hb : (g.act i).2 = some b) :
    HandsOver g.tree (g.act i).1.tree (g.recorded (g.due i)) b := by
  obtain ⟨raws, hHas⟩ := h.has
  rw [act_eq_process] at hb ⊢
  have hPlaced : Section.Placed (g.prepare i).tree.sections := by simpa using h.introduces.placed
  simpa [recorded, read] using process_handsOver (hHas.prepare i) hPlaced hb

/-- **The two parts of a batch keep the order of changes**, whatever a grouping is told to do: an
input hands over one batch if there are lines to read, and else none; a batch has the changes as
they were recorded; and all batches so far begin every section ahead of the changes about it. -/
theorem batches_ordered (deferred : Bool) (inputs : List Input) :
    let g := run { deferred := deferred } inputs
    (∀ i, ((g.act i).2.isSome ↔ g.Reads i) ∧
      ∀ b, (g.act i).2 = some b →
        HandsOver g.tree (g.act i).1.tree (g.recorded (g.due i)) b) ∧
      Change.Introduced ((handedOver { deferred := deferred } inputs).flatMap Batch.changes)
        g.tree.sections.size := by
  intro g
  have hHanded := run_handed deferred inputs
  refine ⟨fun i => ⟨isSome_act g i, fun b hb => hHanded.act_handsOver hb⟩, ?_⟩
  obtain ⟨raws, hHas⟩ := hHanded.has
  simpa [hHas.pending] using hHanded.introduces.introduced

end Grouping

end BuildLog
