import BuildLog.Console
import BuildLog.Proofs.Grouping.Handover
import BuildLog.Proofs.View.Mirror
import Mathlib.Algebra.GroupWithZero.Nat

/-!
# The view mirrors the tree

A console reads lines into a tree and shows it in a view; the reader may fold the view's sections in
between. The view learns of the tree only through batches of changes, and still shows at every
moment what the tree holds.

* `Tree.kept_shownBy`: applying the changes recorded so far shows the tree, while it is read into.
* `Console.process_mirrors`: so does committing the batch that they are handed over in.
* `Console.run_mirrors`: the view mirrors the tree whatever the log holds and the reader does.
-/

namespace BuildLog

namespace Tree

/-- A view that applies the changes not yet handed over mirrors the tree. -/
def ShownBy (untouched : Prop) (v : View) (t : Tree) : Prop :=
  (t.pending.toList.foldl View.apply v).Mirrors untouched t.sections

/-- An edit of a section keeps a display that has applied all changes in step. -/
theorem ShownBy.edit {untouched : Prop} {v : View} {t : Tree} (h : t.ShownBy untouched v) (id : Nat)
    {e : Section.Edit} (he : e.ByCursor) : (t.edit id e).ShownBy untouched v := by
  unfold ShownBy
  rw [pending_edit, List.foldl_append]
  exact View.Mirrors.edit h id he

theorem ShownBy.append {untouched : Prop} {v : View} {t : Tree} (h : t.ShownBy untouched v) :
    t.append.ShownBy untouched v := by
  unfold ShownBy
  rw [pending_append, List.foldl_append]
  exact View.Mirrors.append h

theorem kept_shownBy (untouched : Prop) (v : View) : Kept (ShownBy untouched v) where
  edit _ he h := h.edit _ he
  append h := h.append

end Tree

namespace Console

/-- What happens to a console. -/
inductive Action where
  | input (i : Grouping.Input)
  /-- The reader folds or unfolds a section. -/
  | toggle (id : Nat)
  /-- The reader folds or unfolds all sections. -/
  | toggleAll

/-- Whether an action is the reader's. -/
def Action.folds : Action → Bool
  | .input _ => false
  | .toggle _ | .toggleAll => true

/-- Let an action happen. -/
def act (c : Console) : Action → Console
  | .input i => ⟨(c.grouping.act i).1, commit? c.view (c.grouping.act i).2⟩
  | .toggle id => { c with view := (c.view.toggle id).1 }
  | .toggleAll => { c with view := c.view.toggleAll }

/-- Let some actions happen, one after the other. -/
def run (c : Console) (actions : List Action) : Console := actions.foldl act c

variable {untouched : Prop}

variable {P : List Section → Section → List Text → Prop}

/-- Committing the batch of some lines applies the changes recorded while they are read. -/
theorem commit_process {g : Grouping} {raws : List Text} (hHas : g.Has P raws)
    (hPlaced : Section.Placed g.tree.sections) (v : View) (raw : Text) (lines : List Text) :
    commit? v (g.process (raw :: lines)).2 =
      (g.recorded (raw :: lines)).foldl View.apply { v with commits := v.commits + 1 } := by
  have hChanges : Batch.changes _ = g.recorded (raw :: lines) :=
    Grouping.changes_process hHas hPlaced (raw :: lines) rfl
  rw [← hChanges]
  rfl

/-- Committing the batch of some lines makes a view mirror the tree with these lines. -/
theorem process_mirrors {g : Grouping} {v : View} {raws : List Text} (hHas : g.Has P raws)
    (h : v.Mirrors untouched g.tree.sections) (lines : List Text) :
    (commit? v (g.process lines).2).Mirrors untouched (g.process lines).1.tree.sections := by
  cases lines with
  | nil => exact h
  | cons raw lines =>
    have hShown : g.tree.ShownBy untouched { v with commits := v.commits + 1 } := by
      simpa [Tree.ShownBy, hHas.pending] using h.counted
    rw [commit_process hHas h.placed]
    exact Grouping.read_kept (Tree.kept_shownBy untouched _) hHas hShown (raw :: lines)

/-! ## Runs of a console -/

/-- The sections hold as many lines as have been read. -/
def Complete (closed : List Section) (s : Section) (raws : List Text) : Prop :=
  ((closed ++ [s]).map (·.lines.size)).sum = raws.length

theorem size_lines_advance {place ordinal : Nat} {framed : Framed} {s s' : Section}
    {begun : Option Section} (h : s.Advance place ordinal framed s' begun) :
    ((s' :: begun.toList).map (·.lines.size)).sum = s.lines.size + 1 := by
  obtain ⟨role, hLines⟩ := h.lines_concat
  simpa [List.length_flatMap] using congrArg List.length hLines

theorem Complete.advance {closed : List Section} {s s' : Section} {raws : List Text}
    {place ordinal : Nat} {framed : Framed} {begun : Option Section} (h : Complete closed s raws)
    (hAdvance : s.Advance place ordinal framed s' begun) :
    ((closed ++ s' :: begun.toList).map (·.lines.size)).sum = raws.length + 1 := by
  have hSize := size_lines_advance hAdvance
  simp only [Complete, List.map_append, List.sum_append, List.map_cons, List.map_nil,
    List.sum_cons, List.sum_nil] at h hSize ⊢
  omega

/-- No line is lost: the sections hold as many as were read. -/
theorem invariant_complete : Grouping.Invariant Complete where
  start := by simp [Complete]
  stay h hAdvance := by simpa [Complete] using h.advance hAdvance
  leave h hAdvance := by simpa [Complete] using h.advance hAdvance

/-- A console between two actions: its grouping is in a state that is reached, and its view mirrors
the tree. -/
structure Synced (untouched : Prop) (c : Console) : Prop where
  reached : ∃ given raws, c.grouping.Reached Complete given raws
  mirrors : c.view.Mirrors untouched c.grouping.tree.sections

theorem synced_new (untouched : Prop) (deferred : Bool) :
    Synced untouched { grouping := { deferred := deferred } } where
  reached := ⟨[], [], ⟨rfl, .inl ⟨rfl, rfl, rfl, rfl⟩⟩, rfl, fun _ => rfl⟩
  mirrors := View.mirrors_empty

theorem Synced.input {c : Console} (h : c.Synced untouched) (i : Grouping.Input) :
    (c.act (.input i)).Synced untouched := by
  obtain ⟨given, raws, hReached⟩ := h.reached
  have hAct : c.act (.input i) = ⟨(c.grouping.act i).1, commit? c.view (c.grouping.act i).2⟩ := rfl
  refine ⟨⟨_, _, Grouping.act_reached invariant_complete hReached i⟩, ?_⟩
  rw [hAct, Grouping.act_eq_process]
  exact process_mirrors (hReached.has.prepare i) (by simpa using h.mirrors) _

theorem Synced.act {c : Console} (h : c.Synced untouched) (a : Action)
    (hTouched : a.folds = true → ¬ untouched) : (c.act a).Synced untouched := by
  cases a with
  | input i => exact h.input i
  | toggle id => exact ⟨h.reached, h.mirrors.toggle (hTouched rfl) id⟩
  | toggleAll => exact ⟨h.reached, h.mirrors.toggleAll (hTouched rfl)⟩

theorem Synced.run {c : Console} (h : c.Synced untouched) (actions : List Action)
    (hTouched : ∀ a ∈ actions, a.folds = true → ¬ untouched) :
    (c.run actions).Synced untouched := by
  induction actions generalizing c with
  | nil => exact h
  | cons a actions ih =>
    exact ih (h.act a (hTouched a List.mem_cons_self)) fun b hb =>
      hTouched b (List.mem_cons_of_mem a hb)

theorem Synced.foldl_log {c : Console} (h : c.Synced untouched) (batches : List (List Text)) :
    (batches.foldl log c).Synced untouched := by
  induction batches generalizing c with
  | nil => exact h
  | cons lines batches ih => exact ih (h.input (.lines lines))

theorem Synced.lineCount_eq {c : Console} (h : c.Synced untouched) :
    c.view.lineCount = c.grouping.lineCount := by
  have hSizes : c.view.entries.toList.map (·.lines.size) =
      c.grouping.tree.sections.toList.map (·.lines.size) := by
    apply List.ext_getElem
    · simpa using h.mirrors.size_eq
    · intro i hi hi'
      simp only [List.length_map, Array.length_toList] at hi hi'
      have hEntry := h.mirrors.entry i _ _ (Array.getElem?_eq_getElem hi)
        (Array.getElem?_eq_getElem hi')
      simp [hEntry.lines]
  have hSum : c.view.lineCount = (c.view.entries.toList.map (·.lines.size)).sum := by
    simp [View.lineCount, List.sum, List.foldr_map]
  obtain ⟨given, raws, hReached⟩ := h.reached
  rw [hSum, hSizes]
  obtain ⟨-, hEmpty, -, hCount⟩ | ⟨closed, s, hEnds, -, hCount, hComplete⟩ := hReached.has.sections
  · simp [hEmpty, hCount]
  · rw [hEnds, hCount, hComplete]

/-- **The view mirrors the tree**, whatever the log holds and whatever the reader folds: section by
section, at its place and under its id. As long as the reader folds nothing, sections are also open
in the view exactly when they are in the tree. -/
theorem run_mirrors (deferred : Bool) (actions : List Action) :
    let c := run { grouping := { deferred := deferred } } actions
    c.view.entries.size = c.grouping.tree.sections.size ∧
      (∀ i s, c.grouping.tree.sections[i]? = some s → s.id = i ∧
        ∃ e, c.view.entries[i]? = some e ∧ c.view.get? i = some e ∧
          e.Mirrors (∀ a ∈ actions, a.folds = false) s) ∧
      c.view.lineCount = c.grouping.lineCount := by
  intro c
  have h : c.Synced (∀ a ∈ actions, a.folds = false) := by
    refine (synced_new _ deferred).run actions fun a ha hFolds hNone => ?_
    simp [hNone a ha] at hFolds
  refine ⟨h.mirrors.size_eq, ?_, h.lineCount_eq⟩
  intro i s hs
  have hi : i < c.view.entries.size := by
    rw [h.mirrors.size_eq]
    exact (Array.getElem?_eq_some_iff.mp hs).1
  have he := Array.getElem?_eq_getElem hi
  exact ⟨h.mirrors.placed i s hs, _, he, (h.mirrors.get? i).trans he, h.mirrors.entry i _ s he hs⟩

end Console

end BuildLog
