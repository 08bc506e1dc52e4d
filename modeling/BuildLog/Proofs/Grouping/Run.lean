import BuildLog.Proofs.Grouping.Advance
import Mathlib.Data.List.Induction

/-!
# Runs of a grouping

A grouping is given batches of lines and is released, in any order and any number of times. What
holds of a tree that has just been begun, and is kept by each of the six ways to read a line, holds
of every state that is reached.

* `process_has`: a batch of lines keeps an invariant, wherever its borders are.
* `read_kept`: what edits and new sections keep is kept while lines are read.
* `run_has`: an invariant holds in every state reached, of the lines given so far that are not held
  back.
-/

namespace BuildLog.Grouping

/-- What a grouping is told to do. -/
inductive Input where
  /-- Take in a batch of lines. -/
  | lines (batch : List Text)
  /-- Hold lines back no longer. -/
  | release
  deriving DecidableEq, Repr

/-- The lines that an input brings. -/
def Input.given : Input → List Text
  | .lines batch => batch
  | .release => []

/-- Do what an input says. -/
def act (g : Grouping) : Input → Grouping × Option Batch
  | .lines batch => g.feed batch
  | .release => g.release

/-- Do what some inputs say, one after the other. -/
def run (g : Grouping) (inputs : List Input) : Grouping := inputs.foldl (fun g i => (g.act i).1) g

theorem run_concat (g : Grouping) (inputs : List Input) (i : Input) :
    g.run (inputs ++ [i]) = ((g.run inputs).act i).1 := by
  simp [run]

/-- A property of the closed sections, the open one and the lines read so far that no line
breaks. -/
structure Invariant (P : List Section → Section → List Text → Prop) : Prop where
  start : P [] { id := 0 } []
  stay : ∀ {closed : List Section} {s s' : Section} {raws : List Text} {raw : Text},
    P closed s raws →
    s.Advance (closed.length + 1) (raws.length + 1) (.ofRaw raw) s' none →
    P closed s' (raws ++ [raw])
  leave : ∀ {closed : List Section} {s s' next : Section} {raws : List Text} {raw : Text},
    P closed s raws →
    s.Advance (closed.length + 1) (raws.length + 1) (.ofRaw raw) s' (some next) →
    P (closed ++ [s']) next (raws ++ [raw])

/-- A reading has read some lines, and a property holds of its sections. -/
def Reading.Has (P : List Section → Section → List Text → Prop) (r : Reading)
    (raws : List Text) : Prop :=
  ∃ closed s, r.tree.EndsWith closed s ∧ r.cursor = closed.length ∧ r.lineCount = raws.length ∧
    P closed s raws

/-- A grouping has handed over all changes and has read some lines. If it has begun a tree, a
property holds of its sections. -/
structure Has (P : List Section → Section → List Text → Prop) (g : Grouping)
    (raws : List Text) : Prop where
  pending : g.tree.pending = #[]
  sections : (raws = [] ∧ g.tree.sections = #[] ∧ g.cursor = none ∧ g.lineCount = 0) ∨
    ∃ closed s, g.tree.EndsWith closed s ∧ g.cursor = some closed.length ∧
      g.lineCount = raws.length ∧ P closed s raws

/-- The lines that are read when an input comes. -/
def due (g : Grouping) : Input → List Text
  | .lines batch => if g.deferred then [] else batch
  | .release => g.queue

/-- What an input makes of a grouping before any line is read: lines may go to the queue, or all
leave it. -/
def prepare (g : Grouping) : Input → Grouping
  | .lines batch => if g.deferred then { g with queue := g.queue ++ batch } else g
  | .release => { g with deferred := false, queue := [] }

/-- Every input comes down to reading the lines that are due. -/
theorem act_eq_process (g : Grouping) (i : Input) : g.act i = (g.prepare i).process (g.due i) := by
  cases i with
  | lines batch => cases hDeferred : g.deferred <;> simp [act, feed, prepare, due, hDeferred]
  | release => rfl

@[simp] theorem tree_prepare (g : Grouping) (i : Input) : (g.prepare i).tree = g.tree := by
  unfold prepare
  split
  · split <;> rfl
  · rfl

@[simp] theorem start_prepare (g : Grouping) (i : Input) : (g.prepare i).start = g.start := by
  unfold prepare
  split
  · split <;> rfl
  · rfl

variable {P : List Section → Section → List Text → Prop}

theorem Has.prepare {g : Grouping} {raws : List Text} (h : g.Has P raws) (i : Input) :
    (g.prepare i).Has P raws := by
  unfold Grouping.prepare
  split
  · split <;> exact ⟨h.pending, h.sections⟩
  · exact ⟨h.pending, h.sections⟩

/-- No line breaks an invariant. -/
theorem Reading.next_has (hP : Invariant P) {r : Reading} {raws : List Text} (h : r.Has P raws)
    (raw : Text) : (r.next raw).Has P (raws ++ [raw]) := by
  obtain ⟨closed, s, hEnds, hCursor, hCount, hs⟩ := h
  obtain ⟨s', next, hAdvance, hSections, hNext⟩ :=
    consume_advance hEnds (r.lineCount + 1) (.ofRaw raw)
  rw [← hCursor] at hSections hNext
  have hRead : (r.next raw).lineCount = (raws ++ [raw]).length := by
    simp [Reading.next, hCount]
  rw [hCount] at hAdvance
  cases next with
  | none => exact ⟨closed, s', hSections, hNext.trans hCursor, hRead, hP.stay hs hAdvance⟩
  | some next =>
    refine ⟨closed ++ [s'], next, ?_, ?_, hRead, hP.leave hs hAdvance⟩
    · exact hSections.trans (by simp)
    · exact hNext.trans (by simp [hCursor])

theorem Reading.foldl_next_has (hP : Invariant P) {r : Reading} {raws : List Text}
    (h : r.Has P raws) (lines : List Text) :
    (lines.foldl Reading.next r).Has P (raws ++ lines) := by
  induction lines generalizing r raws with
  | nil => simpa using h
  | cons raw lines ih => simpa using ih (Reading.next_has hP h raw)

/-- A reading starts with the invariant of the grouping, in a new section if there was none. -/
theorem start_has (hP : Invariant P) {g : Grouping} {raws : List Text} (h : g.Has P raws) :
    g.start.Has P raws := by
  obtain ⟨rfl, hSections, hCursor, hCount⟩ | ⟨closed, s, hEnds, hCursor, hCount, hs⟩ := h.sections
  · refine ⟨[], { id := 0 }, ?_, ?_, ?_, hP.start⟩
    · simp [start, hCursor, Tree.EndsWith, Tree.sections_append, hSections]
    · simp [start, hCursor, Tree.nextId, hSections]
    · simp [start, hCursor, hCount]
  · refine ⟨closed, s, ?_, ?_, ?_, hs⟩
    · simpa only [start, hCursor] using hEnds
    · simp only [start, hCursor]
    · simpa only [start, hCursor] using hCount

/-- The reading of some lines behind those that a grouping has read. -/
def read (g : Grouping) (lines : List Text) : Reading := lines.foldl Reading.next g.start

theorem read_has (hP : Invariant P) {g : Grouping} {raws : List Text} (h : g.Has P raws)
    (lines : List Text) : (g.read lines).Has P (raws ++ lines) :=
  Reading.foldl_next_has hP (start_has hP h) lines

/-- A batch of lines keeps an invariant, wherever its borders are. -/
theorem process_has (hP : Invariant P) {g : Grouping} {raws : List Text} (h : g.Has P raws)
    (lines : List Text) : (g.process lines).1.Has P (raws ++ lines) := by
  cases lines with
  | nil => simpa using h
  | cons raw lines =>
    obtain ⟨closed, s, hEnds, hCursor, hCount, hs⟩ := read_has hP h (raw :: lines)
    exact ⟨rfl, .inr ⟨closed, s, hEnds, congrArg some hCursor, hCount, hs⟩⟩

theorem act_has (hP : Invariant P) {g : Grouping} {raws : List Text} (h : g.Has P raws)
    (i : Input) : (g.act i).1.Has P (raws ++ g.due i) := by
  rw [act_eq_process]
  exact process_has hP (h.prepare i) (g.due i)

theorem invariant_true : Invariant fun _ _ _ => True :=
  ⟨trivial, fun _ _ => trivial, fun _ _ => trivial⟩

/-- A reading stands at the last section of its tree. -/
def Reading.AtEnd (r : Reading) : Prop := r.tree.sections.size = r.cursor + 1

theorem Reading.next_atEnd {r : Reading} (h : r.AtEnd) (raw : Text) : (r.next raw).AtEnd := by
  obtain ⟨closed, s, hEnds, hLength⟩ := Tree.exists_endsWith h
  obtain ⟨s', next, -, hSections, hCursor⟩ :=
    consume_advance hEnds (r.lineCount + 1) (.ofRaw raw)
  rw [hLength] at hSections hCursor
  have hSize := congrArg List.length hSections
  simp only [Array.length_toList, List.length_append, List.length_cons, hLength] at hSize
  simp only [AtEnd, Reading.next, hSize, hCursor]
  omega

theorem Reading.foldl_next_kept {Q : Tree → Prop} (hQ : Tree.Kept Q) {r : Reading} (hEnd : r.AtEnd)
    (h : Q r.tree) (lines : List Text) : Q (lines.foldl Reading.next r).tree := by
  induction lines generalizing r with
  | nil => exact h
  | cons raw lines ih => exact ih (next_atEnd hEnd raw) (consume_kept hQ hEnd h _ _)

theorem Has.start_atEnd {g : Grouping} {raws : List Text} (h : g.Has P raws) : g.start.AtEnd := by
  obtain ⟨-, hSections, hCursor, -⟩ | ⟨closed, s, hEnds, hCursor, -, -⟩ := h.sections
  · simp [start, hCursor, Reading.AtEnd, Tree.sections_append, Tree.nextId]
  · simpa only [start, hCursor, Reading.AtEnd] using hEnds.size_eq

/-- Whatever edits and new sections keep is kept while lines are read. -/
theorem read_kept {Q : Tree → Prop} (hQ : Tree.Kept Q) {g : Grouping} {raws : List Text}
    (hHas : g.Has P raws) (h : Q g.tree) (lines : List Text) : Q (g.read lines).tree := by
  refine Reading.foldl_next_kept hQ hHas.start_atEnd ?_ lines
  unfold start
  split
  · exact h
  · exact hQ.append h

@[simp] theorem queue_process (g : Grouping) (lines : List Text) :
    (g.process lines).1.queue = g.queue := by
  unfold process
  split <;> rfl

@[simp] theorem deferred_process (g : Grouping) (lines : List Text) :
    (g.process lines).1.deferred = g.deferred := by
  unfold process
  split <;> rfl

/-- Without a batch, nothing has been read. -/
theorem process_of_none {g : Grouping} {lines : List Text} (h : (g.process lines).2 = none) :
    (g.process lines).1 = g := by
  cases lines with
  | nil => rfl
  | cons raw lines => simp [process] at h

/-- A release, and nothing else, ends the holding back of lines. -/
theorem deferred_act (g : Grouping) (i : Input) :
    (g.act i).1.deferred = (g.deferred && i != .release) := by
  cases i with
  | lines batch => cases hDeferred : g.deferred <;> simp [act, feed, hDeferred]
  | release => simp [act, release]

/-- Lines are held back until the first release. -/
theorem deferred_run (g : Grouping) (inputs : List Input) :
    (g.run inputs).deferred = (g.deferred && inputs.all (· != .release)) := by
  induction inputs generalizing g with
  | nil => simp [run]
  | cons i inputs ih =>
    have hRest := ih (g.act i).1
    rw [deferred_act] at hRest
    simpa [run, Bool.and_assoc] using hRest

/-- An invariant holds of the lines given so far, but for those held back. -/
structure Reached (P : List Section → Section → List Text → Prop) (g : Grouping)
    (given raws : List Text) : Prop where
  has : g.Has P raws
  given_eq : raws ++ g.queue = given
  queue_eq : g.deferred = false → g.queue = []

/-- The lines read are the first ones given, as many as are counted. -/
theorem Reached.take_lineCount {g : Grouping} {given raws : List Text}
    (h : g.Reached P given raws) : given.take g.lineCount = raws := by
  have hCount : g.lineCount = raws.length := by
    obtain ⟨rfl, -, -, hCount⟩ | ⟨_, _, -, -, hCount, -⟩ := h.has.sections <;> exact hCount
  rw [hCount, ← h.given_eq, List.take_left]

/-- The lines due and those that stay in the queue are the ones that were there or have come. -/
theorem Reached.due_append_queue {g : Grouping} {given raws : List Text}
    (h : g.Reached P given raws) (i : Input) :
    g.due i ++ (g.prepare i).queue = g.queue ++ i.given := by
  cases i with
  | lines batch =>
    cases hDeferred : g.deferred with
    | true => simp [due, Grouping.prepare, Input.given, hDeferred]
    | false => simp [due, Grouping.prepare, Input.given, hDeferred, h.queue_eq hDeferred]
  | release => simp [due, Grouping.prepare, Input.given]

theorem Reached.queue_prepare {g : Grouping} {given raws : List Text} (h : g.Reached P given raws)
    (i : Input) (hPrepared : (g.prepare i).deferred = false) : (g.prepare i).queue = [] := by
  cases i with
  | lines batch =>
    cases hDeferred : g.deferred with
    | true => simp [Grouping.prepare, hDeferred] at hPrepared
    | false => simpa [Grouping.prepare, hDeferred] using h.queue_eq hDeferred
  | release => rfl

/-- An input moves lines from those given to those read and keeps their order. -/
theorem act_reached (hP : Invariant P) {g : Grouping} {given raws : List Text}
    (h : g.Reached P given raws) (i : Input) :
    (g.act i).1.Reached P (given ++ i.given) (raws ++ g.due i) := by
  refine ⟨act_has hP h.has i, ?_, ?_⟩ <;> rw [act_eq_process]
  · rw [queue_process, List.append_assoc, h.due_append_queue, ← List.append_assoc, h.given_eq]
  · rw [deferred_process, queue_process]
    exact h.queue_prepare i

/-- Whatever a grouping is told to do, an invariant holds of the lines it was given, but for those
it holds back. -/
theorem run_has (hP : Invariant P) (deferred : Bool) (inputs : List Input) :
    ∃ raws, (run { deferred := deferred } inputs).Reached P (inputs.flatMap Input.given) raws := by
  induction inputs using List.reverseRecOn with
  | nil => exact ⟨[], ⟨rfl, .inl ⟨rfl, rfl, rfl, rfl⟩⟩, rfl, fun _ => rfl⟩
  | append_singleton inputs i ih =>
    obtain ⟨raws, h⟩ := ih
    exact ⟨raws ++ due _ i, by simpa [run_concat] using act_reached hP h i⟩

end BuildLog.Grouping
