import BuildLog.Proofs.Poll.Agreement
import BuildLog.Proofs.Viewer.Scrolling

/-!
# Folding under a scrolled reader

A reader who has scrolled away from the end of the log should find the top row where it was when
sections are folded, as far as the rows that are left allow it. Folding the selected section goes by
the row at the top. Folding all sections goes by the row that is remembered, and this one lies
further down once the pane has grown or new lines have shortened the log.

* `Anchored`: the row remembered is the row at the top.
* `anchored_step`: only a change of the log or of the pane can make a difference between the two.
* `run_folds`: where both ways of folding lead.
* `unfolding_moves_reader`: a reader at the first row, who is not left there.
-/

namespace BuildLog.Viewer

/-- Where the end of the log is not followed, a window can begin with the row remembered. -/
def Anchored (v : Viewer) : Prop := v.scroll.following = false → v.scroll.offset ≤ v.maxTop

/-- Whether a step can change the rows of the log or of the pane without any scrolling. -/
def Step.resizes : Step → Bool
  | .update (.flush _) | .event (.viewport _) => true
  | .update _ | .event _ => false

/-- Whether no step that changes the rows of the log or of the pane makes the last window begin
further up. -/
def keepsRoom (v : Viewer) : List Step → Bool
  | [] => true
  | s :: steps =>
    (!s.resizes || decide (v.maxTop ≤ (v.step s).maxTop)) && (v.step s).keepsRoom steps

/-! ## Where folding leads -/

theorem stayAt_of_not_following {v : Viewer} (h : v.scroll.following = false) (row : Nat) :
    v.stayAt row = v.scrollTo row := by
  simp [stayAt, h]

theorem top_stayAt {v : Viewer} (h : v.scroll.following = false) (row : Nat) :
    (v.stayAt row).top = min row (v.stayAt row).maxTop := by
  rw [stayAt_of_not_following h, top_scrollTo, (v.rescrolled_scrollTo row).maxTop_eq]

theorem toggleSelected_of_none {v : Viewer} (h : v.selected = none) : v.toggleSelected = v := by
  simp [toggleSelected, h]

theorem toggleSelected_of_some {v : Viewer} {id : Nat} (h : v.selected = some id) :
    v.toggleSelected = { v with view := (v.view.toggle id).1 }.stayAt v.top := by
  simp only [toggleSelected, h]

/-- Folding the selected section keeps the top row, or the last one that is possible. -/
theorem top_toggleSelected {v : Viewer} (h : v.scroll.following = false) :
    (v.handle .toggleSelected).top = min v.top (v.handle .toggleSelected).maxTop := by
  cases hSelected : v.selected with
  | none =>
    rw [handle, toggleSelected_of_none hSelected]
    exact (Nat.min_eq_left v.top_le_maxTop).symm
  | some id =>
    rw [handle, toggleSelected_of_some hSelected]
    exact top_stayAt (v := { v with view := (v.view.toggle id).1 }) h v.top

/-- Folding all sections goes back to the row remembered, or the last one that is possible. -/
theorem top_toggleAll {v : Viewer} (h : v.scroll.following = false) :
    (v.handle .toggleAll).top = min v.scroll.offset (v.handle .toggleAll).maxTop :=
  top_stayAt (v := { v with view := v.view.toggleAll }) h v.scroll.offset

/-! ## The row remembered -/

theorem anchored_of_following {v : Viewer} (h : v.scroll.following = true) : v.Anchored := by
  intro hNot
  rw [h] at hNot
  cases hNot

theorem anchored_scrollTo (v : Viewer) (row : Nat) : (v.scrollTo row).Anchored := by
  intro _
  rw [(v.rescrolled_scrollTo row).maxTop_eq]
  exact Nat.min_le_right row v.maxTop

/-- Folding leaves a viewer either at the end of the log or at a row that it has just scrolled to. -/
theorem anchored_stayAt (v : Viewer) (row : Nat) : (v.stayAt row).Anchored := by
  cases h : v.scroll.following with
  | true =>
    refine anchored_of_following ?_
    simp [stayAt, h]
  | false =>
    rw [stayAt_of_not_following h]
    exact v.anchored_scrollTo row

theorem anchored_scrollBy (v : Viewer) (action : ScrollAction) : (v.scrollBy action).Anchored := by
  cases action with
  | lineUp | lineDown | pageUp | pageDown => exact v.anchored_scrollTo _
  | toTop => exact fun _ => Nat.zero_le _
  | toBottom => exact anchored_of_following rfl

theorem Anchored.revealSelected {v : Viewer} (h : v.Anchored) : v.revealSelected.Anchored := by
  unfold Viewer.revealSelected
  split
  · exact h
  · split
    · exact v.anchored_scrollTo _
    · split
      · exact v.anchored_scrollTo _
      · exact h

theorem Anchored.select {v : Viewer} (h : v.Anchored) (direction : Direction) :
    (v.select direction).Anchored := by
  rw [select_eq]
  cases v.neighbour? direction with
  | none => exact h
  | some id => exact Anchored.revealSelected h

/-- The row remembered stays a possible one as long as no event that resizes takes rows away. -/
theorem Anchored.handle {v : Viewer} (h : v.Anchored) {e : Event}
    (hRoom : (Step.event e).resizes = true → v.maxTop ≤ (v.handle e).maxTop) :
    (v.handle e).Anchored := by
  cases e with
  | quit | toggleTimestamps => exact h
  | toggleAll => exact anchored_stayAt _ _
  | toggleSelected =>
    rw [Viewer.handle]
    cases hSelected : v.selected with
    | none => rwa [toggleSelected_of_none hSelected]
    | some id =>
      rw [toggleSelected_of_some hSelected]
      exact anchored_stayAt _ _
  | selectNext | selectPrevious => exact h.select _
  | scroll action => exact v.anchored_scrollBy action
  | viewport rows => exact fun hFollowing => Nat.le_trans (h hFollowing) (hRoom rfl)

theorem Anchored.receive {v : Viewer} (h : v.Anchored) {u : Update}
    (hRoom : (Step.update u).resizes = true → v.maxTop ≤ (v.receive u).maxTop) :
    (v.receive u).Anchored := by
  cases u with
  | flush batch =>
    intro hFollowing
    rw [following_receive] at hFollowing
    have hOffset : (v.receive (.flush batch)).scroll.offset = v.top := by
      simp [Viewer.receive, hFollowing]
    rw [hOffset]
    exact Nat.le_trans v.top_le_maxTop (hRoom rfl)
  | polled | fetchFailed | completed => exact h

theorem anchored_step {v : Viewer} (h : v.Anchored) {s : Step}
    (hRoom : s.resizes = true → v.maxTop ≤ (v.step s).maxTop) : (v.step s).Anchored := by
  cases s with
  | update u => exact h.receive hRoom
  | event e => exact h.handle hRoom

/-- As long as there is room, the row remembered stays a possible one. -/
theorem anchored_run {v : Viewer} (h : v.Anchored) {steps : List Step}
    (hRoom : v.keepsRoom steps = true) : (v.run steps).Anchored := by
  induction steps generalizing v with
  | nil => exact h
  | cons s steps ih =>
    rw [keepsRoom, Bool.and_eq_true] at hRoom
    obtain ⟨hFirst, hLater⟩ := hRoom
    refine ih (anchored_step h fun hResizes => ?_) hLater
    simpa [hResizes] using hFirst

/-! ## A task that has passed -/

/-- The lines of a task that has passed, and two more. -/
def passedLines : List Text :=
  ["!!|10:00:00.000 [go] Task: make", "&1|10:00:01.000 out", "?0|10:00:02.000 done", "a", "b"].map
    String.toList

/-- A viewer is told of these lines. -/
def passedSteps : List Step :=
  (({} : Grouping).process passedLines).2.toList.map fun batch => .update (.flush batch)

/-- What a view shows and how it is folded, without the table of positions. -/
def bare (v : View) : View := { entries := v.entries, collapsed := v.collapsed }

theorem bare_toggleAll (v : View) : bare v.toggleAll = (bare v).toggleAll := by
  have hFoldable : (bare v).isFoldable = v.isFoldable := rfl
  unfold View.toggleAll
  rw [hFoldable]
  split <;> rfl

theorem run_append (v : Viewer) (first later : List Step) :
    v.run (first ++ later) = (v.run first).run later := List.foldl_append

theorem run_passedSteps {v : Viewer} (h : v.scroll.following = true) :
    v.run passedSteps =
      { v with view := Console.commit? v.view (({} : Grouping).process passedLines).2 } := by
  unfold passedSteps
  cases (({} : Grouping).process passedLines).2 with
  | none => rfl
  | some batch => simp [run, step, receive, h, Console.commit?]

theorem bare_passed :
    bare (Console.commit? {} (({} : Grouping).process passedLines).2) =
      { entries := (({} : Grouping).process passedLines).1.tree.sections.map .ofSection } := by
  -- Applying changes looks up positions, which does not reduce; mirroring the tree gives the entries.
  have hHas : ({} : Grouping).Has (fun _ _ _ => True) [] := ⟨rfl, .inl ⟨rfl, rfl, rfl, rfl⟩⟩
  have hEmpty : View.Mirrors True {} #[] := View.mirrors_empty
  have hMirrors := Console.process_mirrors hHas hEmpty passedLines
  have hCollapsed : (Console.commit? {} (({} : Grouping).process passedLines).2).collapsed = false :=
    View.collapsed_commit {} _
  rw [bare, hMirrors.entries_eq_map, hCollapsed]

/-- Folded, the task leaves three rows of five. -/
theorem visibleCount_passed :
    let view := Console.commit? {} (({} : Grouping).process passedLines).2
    view.toggleAll.visibleCount = 3 ∧ view.toggleAll.toggleAll.visibleCount = 5 := by
  intro view
  have hFolded : bare view.toggleAll = (bare view).toggleAll := bare_toggleAll view
  have hUnfolded : bare view.toggleAll.toggleAll = (bare view).toggleAll.toggleAll := by
    rw [bare_toggleAll, hFolded]
  rw [bare_passed] at hFolded hUnfolded
  constructor
  · rw [show view.toggleAll.visibleCount = (bare view.toggleAll).visibleCount from rfl, hFolded]
    decide +kernel
  · rw [show view.toggleAll.toggleAll.visibleCount = (bare view.toggleAll.toggleAll).visibleCount
      from rfl, hUnfolded]
    decide +kernel

/-- With the task folded, the reader scrolls up to the second of three rows. -/
theorem run_scrolled :
    ∃ view : View, view.visibleCount = 3 ∧ view.toggleAll.visibleCount = 5 ∧
      run { label := "log", showTimestamps := false }
          (passedSteps ++ [.event .toggleAll, .event (.scroll .lineUp)]) =
        { label := "log", showTimestamps := false, view := view, scroll := ⟨1, false, 1⟩ } := by
  obtain ⟨hFolded, hUnfolded⟩ := visibleCount_passed
  refine ⟨_, hFolded, hUnfolded, ?_⟩
  rw [run_append, run_passedSteps rfl]
  simp [run, step, handle, stayAt, scrollBy, scrollTo, top, maxTop, rowCount, paneRows, hFolded]

/-! ## Runs -/

/-- **Folding under a reader who does not follow the end of the log.** Folding the selected section
leaves the top row where it was, or at the last row that a window can begin with if the log has
become too short. Folding all sections does the same with the row remembered. So it leaves the top
row in place, too, unless the row remembered lay further down than any window could begin and the
log has now become longer; and this does not happen as long as neither new lines nor new heights of
the pane make the last window begin further up. -/
theorem run_folds (label : String) (showTimestamps : Bool) (steps : List Step)
    (hScrolled :
      (run { label := label, showTimestamps := showTimestamps } steps).scroll.following = false) :
    let start : Viewer := { label := label, showTimestamps := showTimestamps }
    let v := start.run steps
    let one := v.handle .toggleSelected
    let all := v.handle .toggleAll
    one.top = min v.top one.maxTop ∧ all.top = min v.scroll.offset all.maxTop ∧
    (all.top = min v.top all.maxTop ↔ v.scroll.offset ≤ v.maxTop ∨ all.maxTop ≤ v.maxTop) ∧
    (start.keepsRoom steps = true → all.top = min v.top all.maxTop) := by
  intro start v one all
  have hTop : v.top = min v.scroll.offset v.maxTop := top_of_not_following hScrolled
  have hAll : all.top = min v.scroll.offset all.maxTop := top_toggleAll hScrolled
  have hSame : all.top = min v.top all.maxTop ↔
      v.scroll.offset ≤ v.maxTop ∨ all.maxTop ≤ v.maxTop := by
    rw [hAll, hTop]
    omega
  refine ⟨top_toggleSelected hScrolled, hAll, hSame, fun hRoom => hSame.mpr (.inl ?_)⟩
  exact anchored_run (anchored_of_following rfl) hRoom hScrolled

/-- Unfolding the task leaves the reader at the second row. -/
theorem run_folds_of_second_row :
    let start : Viewer := { label := "log", showTimestamps := false }
    let steps := passedSteps ++ [.event .toggleAll, .event (.scroll .lineUp)]
    let v := start.run steps
    v.scroll.following = false ∧ v.scroll.offset ≤ v.maxTop ∧ v.top = 1 ∧
      (v.handle .toggleAll).top = 1 := by
  intro start steps v
  obtain ⟨view, hFolded, hUnfolded, hRun⟩ := run_scrolled
  have hv : v = { start with view := view, scroll := ⟨1, false, 1⟩ } := hRun
  have hScrolled : v.scroll.following = false := by rw [hv]
  have hOffset : v.scroll.offset ≤ v.maxTop := by
    simp [hv, maxTop, rowCount, paneRows, hFolded]
  have hTop : v.top = 1 := by
    simp [hv, top, maxTop, rowCount, paneRows, hFolded]
  have hMax : (v.handle .toggleAll).maxTop = 4 := by
    simp [hv, handle, stayAt, scrollTo, maxTop, rowCount, paneRows, hUnfolded]
  obtain ⟨-, -, hSame, -⟩ := run_folds "log" false steps hScrolled
  have hAll := hSame.mpr (.inl hOffset)
  exact ⟨hScrolled, hOffset, hTop, by rw [hAll, hTop, hMax]; rfl⟩

/-- With the pane made as high as the log, there is no row above the first one at the top. Unfolding
the task brings the second row to the top all the same. -/
theorem unfolding_moves_reader :
    let start : Viewer := { label := "log", showTimestamps := false }
    let v := start.run
      (passedSteps ++ [.event .toggleAll, .event (.scroll .lineUp)] ++ [.event (.viewport 3)])
    v.scroll.following = false ∧ v.top = 0 ∧ (v.handle .toggleAll).maxTop = 2 ∧
      (v.handle .toggleAll).top = 1 ∧
      (v.handle .toggleAll).top ≠ min v.top (v.handle .toggleAll).maxTop := by
  intro start v
  obtain ⟨view, hFolded, hUnfolded, hRun⟩ := run_scrolled
  have hv : v = { start with view := view, scroll := ⟨1, false, 3⟩ } := by
    rw [show v = _ from run_append start _ _, hRun]
    rfl
  have hBefore : v.top = 0 := by simp [hv, top, maxTop, rowCount, paneRows, hFolded]
  have hAfter : (v.handle .toggleAll).top = 1 := by
    simp [hv, handle, stayAt, scrollTo, top, maxTop, rowCount, paneRows, hUnfolded]
  have hLast : (v.handle .toggleAll).maxTop = 2 := by
    simp [hv, handle, stayAt, scrollTo, maxTop, rowCount, paneRows, hUnfolded]
  refine ⟨by rw [hv], hBefore, hLast, hAfter, ?_⟩
  rw [hBefore, hAfter, hLast]
  omega

end BuildLog.Viewer
