import BuildLog.Viewer

/-!
# Scrolling

Where a viewer is scrolled to depends on the row it remembers, on whether it follows the end of the
log, on the height of its pane and on the rows that are not folded away. Messages and events change
these one by one; the window still never leaves the log, and is at its end while the end is followed.

* `Rescrolled`: scrolling changes nothing else.
* `rescrolled_handle`: what an event does, apart from scrolling.
* `top_scrollTo`, `following_scrollTo_iff`: where scrolling to a row leads.
* `length_window_top`, `getLast?_window_top`: what the window holds.
* `run_scrolls`: the window and the six ways to scroll, in every state that is reached.
-/

namespace BuildLog

/-- The row at the top after scrolling, if `top` was there before and `last` is the last row that a
full window can begin with. -/
def ScrollAction.target (top last : Nat) : ScrollAction → Nat
  | .lineUp => top - 1
  | .lineDown => min (top + 1) last
  | .pageUp rows => top - max rows 1
  | .pageDown rows => min (top + max rows 1) last
  | .toTop => 0
  | .toBottom => last

namespace Viewer

/-- What a viewer is given: a message or an event. -/
inductive Step where
  | update (u : Update)
  | event (e : Event)

def step (v : Viewer) : Step → Viewer
  | .update u => v.receive u
  | .event e => v.handle e

def run (v : Viewer) (steps : List Step) : Viewer := steps.foldl step v

/-- The status line up to the mark of a viewer that does not follow the end of the log. -/
def statusHead (v : Viewer) : String :=
  v.label ++ "  " ++ (if v.finished then "finished" else "running") ++
    "  lines:" ++ decimal v.view.lineCount ++ " offset:" ++ decimal v.nextOffset ++
    (if v.view.collapsed then "  [collapsed]" else "")

/-- The status line from there on. -/
def statusTail (v : Viewer) : String :=
  match v.lastError with
  | some message => "  [error] " ++ message
  | none => ""

theorem statusLine_eq (v : Viewer) :
    v.statusLine =
      v.statusHead ++ (if v.scroll.following then "" else "  [scrolled]") ++ v.statusTail := rfl

/-! ## Scrolling changes nothing else -/

/-- A viewer that is scrolled to another place. -/
def Rescrolled (v w : Viewer) : Prop :=
  ∃ offset following,
    w = { v with scroll := { v.scroll with offset := offset, following := following } }

namespace Rescrolled

variable {v w : Viewer}

theorem refl (v : Viewer) : v.Rescrolled v := ⟨_, _, rfl⟩

theorem view_eq (h : v.Rescrolled w) : w.view = v.view := by
  obtain ⟨offset, following, rfl⟩ := h
  rfl

theorem rows_eq (h : v.Rescrolled w) : w.scroll.rows = v.scroll.rows := by
  obtain ⟨offset, following, rfl⟩ := h
  rfl

theorem maxTop_eq (h : v.Rescrolled w) : w.maxTop = v.maxTop := by
  obtain ⟨offset, following, rfl⟩ := h
  rfl

theorem statusHead_eq (h : v.Rescrolled w) : w.statusHead = v.statusHead := by
  obtain ⟨offset, following, rfl⟩ := h
  rfl

theorem statusTail_eq (h : v.Rescrolled w) : w.statusTail = v.statusTail := by
  obtain ⟨offset, following, rfl⟩ := h
  rfl

end Rescrolled

theorem rescrolled_scrollTo (v : Viewer) (row : Nat) : v.Rescrolled (v.scrollTo row) :=
  ⟨_, _, rfl⟩

theorem rescrolled_scrollBy (v : Viewer) (action : ScrollAction) :
    v.Rescrolled (v.scrollBy action) := by
  cases action with
  | lineUp | lineDown | pageUp | pageDown => exact v.rescrolled_scrollTo _
  | toTop | toBottom => exact ⟨_, _, rfl⟩

theorem rescrolled_stayAt (v : Viewer) (row : Nat) : v.Rescrolled (v.stayAt row) := by
  unfold stayAt
  split
  · exact .refl v
  · exact v.rescrolled_scrollTo row

theorem rescrolled_revealSelected (v : Viewer) : v.Rescrolled v.revealSelected := by
  unfold revealSelected
  split
  · exact .refl v
  · split
    · exact v.rescrolled_scrollTo _
    · split
      · exact v.rescrolled_scrollTo _
      · exact .refl v

/-- The section that is selected next, if any can be folded. -/
def neighbour? (v : Viewer) (direction : Direction) : Option Nat :=
  v.foldable[neighbour v.foldable.length direction
    (v.selected.bind fun id => v.foldable.findIdx? (· = id))]?

def selecting (v : Viewer) (direction : Direction) : Viewer :=
  { v with selected := (v.neighbour? direction).or v.selected }

/-- What an event does, apart from scrolling. -/
def effect (v : Viewer) : Event → Viewer
  | .quit => { v with quitRequested := true }
  | .toggleTimestamps => { v with showTimestamps := !v.showTimestamps }
  | .toggleAll => { v with view := v.view.toggleAll }
  | .toggleSelected =>
    match v.selected with
    | none => v
    | some id => { v with view := (v.view.toggle id).1 }
  | .selectNext => v.selecting .next
  | .selectPrevious => v.selecting .previous
  | .scroll _ => v
  | .viewport rows => { v with scroll := { v.scroll with rows := max rows 1 } }

theorem select_eq (v : Viewer) (direction : Direction) :
    v.select direction = match v.neighbour? direction with
      | none => v
      | some id => { v with selected := some id }.revealSelected := rfl

theorem rescrolled_select (v : Viewer) (direction : Direction) :
    (v.selecting direction).Rescrolled (v.select direction) := by
  rw [select_eq, selecting]
  cases v.neighbour? direction with
  | none => exact .refl v
  | some id => exact rescrolled_revealSelected _

/-- Beyond its effect on the rest of the viewer, an event only scrolls. -/
theorem rescrolled_handle (v : Viewer) (e : Event) : (v.effect e).Rescrolled (v.handle e) := by
  cases e with
  | quit | toggleTimestamps | viewport => exact .refl _
  | toggleAll => exact rescrolled_stayAt _ _
  | toggleSelected =>
    rw [effect, handle, toggleSelected]
    cases v.selected with
    | none => exact .refl v
    | some id => exact rescrolled_stayAt _ _
  | selectNext | selectPrevious => exact v.rescrolled_select _
  | scroll action => exact v.rescrolled_scrollBy action

/-! ## Where scrolling leads -/

theorem top_of_following {v : Viewer} (h : v.scroll.following = true) : v.top = v.maxTop := by
  simp [top, h]

theorem top_of_not_following {v : Viewer} (h : v.scroll.following = false) :
    v.top = min v.scroll.offset v.maxTop := by
  simp [top, h]

/-- Whether or not the end of the log is followed from then on, the window begins with the row that
was asked for, if there are enough rows behind it. -/
theorem top_scrollTo (v : Viewer) (row : Nat) : (v.scrollTo row).top = min row v.maxTop := by
  have hMax := (v.rescrolled_scrollTo row).maxTop_eq
  cases hFollowing : (v.scrollTo row).scroll.following with
  | true =>
    have hEnd : v.maxTop ≤ min row v.maxTop := of_decide_eq_true hFollowing
    rw [top_of_following hFollowing, hMax]
    omega
  | false =>
    have hOffset : (v.scrollTo row).scroll.offset = min row v.maxTop := rfl
    rw [top_of_not_following hFollowing, hOffset, hMax]
    omega

/-- Scrolling to a row follows exactly if the row is the last possible one. -/
theorem following_scrollTo_iff (v : Viewer) (row : Nat) :
    (v.scrollTo row).scroll.following = true ↔ (v.scrollTo row).top = v.maxTop := by
  have hFollowing : (v.scrollTo row).scroll.following = decide (v.maxTop ≤ min row v.maxTop) := rfl
  rw [hFollowing, decide_eq_true_iff, top_scrollTo]
  omega

theorem top_scrollBy (v : Viewer) (action : ScrollAction) :
    (v.scrollBy action).top = action.target v.top v.maxTop := by
  cases action with
  | lineUp | pageUp =>
    rw [scrollBy, top_scrollTo]
    exact Nat.min_eq_left (Nat.le_trans (Nat.sub_le _ _) v.top_le_maxTop)
  | lineDown | pageDown => rw [scrollBy, top_scrollTo, ScrollAction.target]
  | toTop =>
    cases hEnd : decide (v.maxTop = 0) with
    | true =>
      have hZero : (v.scrollBy .toTop).maxTop = 0 := of_decide_eq_true hEnd
      exact (top_of_following hEnd).trans hZero
    | false =>
      rw [top_of_not_following hEnd]
      exact Nat.zero_min _
  | toBottom => exact top_of_following rfl

/-- However it is scrolled, a viewer follows the end of the log from then on exactly if it shows
it. -/
theorem following_scrollBy_iff (v : Viewer) (action : ScrollAction) :
    (v.scrollBy action).scroll.following = true ↔ (v.scrollBy action).top = v.maxTop := by
  cases action with
  | lineUp | lineDown | pageUp | pageDown => exact v.following_scrollTo_iff _
  | toTop =>
    have hFollowing : (v.scrollBy .toTop).scroll.following = decide (v.maxTop = 0) := rfl
    rw [hFollowing, decide_eq_true_iff, top_scrollBy]
    exact eq_comm
  | toBottom => exact iff_of_true rfl (top_of_following rfl)

/-! ## The window -/

theorem maxTop_eq {v : Viewer} (hRows : 1 ≤ v.scroll.rows) :
    v.maxTop = v.view.visible.length - v.scroll.rows := by
  have hPane : v.paneRows = v.scroll.rows := Nat.max_eq_left hRows
  rw [maxTop, rowCount, hPane, View.length_visible]

/-- The window is full, or shows all lines there are. -/
theorem length_window_top {v : Viewer} (hRows : 1 ≤ v.scroll.rows) :
    (v.window v.scroll.rows).length = min v.view.visible.length v.scroll.rows := by
  have hTop := v.top_le_maxTop
  rw [maxTop_eq hRows] at hTop
  rw [window, Row.length_window, ← View.length_visible]
  omega

/-- A window that follows the end of the log ends with its last line. -/
theorem getLast?_window_top {v : Viewer} (hRows : 1 ≤ v.scroll.rows)
    (hFollowing : v.scroll.following = true) :
    (v.window v.scroll.rows).getLast? =
      v.view.visible.getLast?.map fun (e, l) => Row.ofLine v.options e l := by
  rw [window, Row.window, List.getLast?_map, top_of_following hFollowing, maxTop_eq hRows,
    List.take_of_length_le (by rw [List.length_drop]; omega), List.getLast?_drop]
  split
  · next hAll =>
    -- Nothing is left behind the top row only if the log has no row at all.
    have hNone : v.view.visible = [] := List.length_eq_zero_iff.mp (by omega)
    rw [hNone]
    rfl
  · rfl

/-! ## States that are reached -/

theorem rows_receive (v : Viewer) (u : Update) : (v.receive u).scroll.rows = v.scroll.rows := by
  cases u with
  | flush batch => cases h : v.scroll.following <;> simp [receive, h]
  | polled | fetchFailed | completed => rfl

theorem one_le_rows_handle {v : Viewer} (h : 1 ≤ v.scroll.rows) (e : Event) :
    1 ≤ (v.handle e).scroll.rows := by
  rw [(v.rescrolled_handle e).rows_eq]
  cases e with
  | quit | toggleTimestamps | toggleAll | selectNext | selectPrevious | scroll => exact h
  | toggleSelected =>
    rw [effect]
    split <;> exact h
  | viewport rows => exact Nat.le_max_right rows 1

theorem one_le_rows_run {v : Viewer} (h : 1 ≤ v.scroll.rows) (steps : List Step) :
    1 ≤ (v.run steps).scroll.rows := by
  induction steps generalizing v with
  | nil => exact h
  | cons s steps ih =>
    refine ih ?_
    cases s with
    | update u =>
      rw [step, rows_receive]
      exact h
    | event e => exact one_le_rows_handle h e

/-- **Scrolling stays inside the log, and following means being at its end.** In every state that
messages and events lead to, the window begins early enough to be as full as the log allows, and it
ends with the last line while the end is followed. Each way to scroll leads exactly to its row, and
leaves the viewer following, without a mark in its status line, exactly if this row is the last one
that a full window can begin with. Messages never start or stop following. -/
theorem run_scrolls (label : String) (showTimestamps : Bool) (steps : List Step) :
    let v := run { label := label, showTimestamps := showTimestamps } steps
    let last := v.view.visible.length - v.scroll.rows
    1 ≤ v.scroll.rows ∧ v.top ≤ last ∧
    (v.window v.scroll.rows).length = min v.view.visible.length v.scroll.rows ∧
    (v.scroll.following = true → (v.window v.scroll.rows).getLast? =
      v.view.visible.getLast?.map fun (e, l) => Row.ofLine v.options e l) ∧
    (∀ action,
      let w := v.handle (.scroll action)
      w.view = v.view ∧ w.scroll.rows = v.scroll.rows ∧ w.top = action.target v.top last ∧
      (w.scroll.following = true ↔ w.top = last) ∧
      w.statusLine =
        v.statusHead ++ (if w.top = last then "" else "  [scrolled]") ++ v.statusTail) ∧
    ∀ u, (v.receive u).scroll.following = v.scroll.following := by
  intro v last
  have hRows : 1 ≤ v.scroll.rows := one_le_rows_run (Nat.le_refl 1) steps
  have hMax : v.maxTop = last := maxTop_eq hRows
  refine ⟨hRows, hMax ▸ v.top_le_maxTop, length_window_top hRows, getLast?_window_top hRows, ?_,
    v.following_receive⟩
  intro action w
  have hScroll : v.Rescrolled w := v.rescrolled_scrollBy action
  have hTop : w.top = action.target v.top last := hMax ▸ v.top_scrollBy action
  have hFollowing : w.scroll.following = true ↔ w.top = last :=
    hMax ▸ v.following_scrollBy_iff action
  refine ⟨hScroll.view_eq, hScroll.rows_eq, hTop, hFollowing, ?_⟩
  rw [statusLine_eq, hScroll.statusHead_eq, hScroll.statusTail_eq]
  simp only [hFollowing]

end Viewer

end BuildLog
