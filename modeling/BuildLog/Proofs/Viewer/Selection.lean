import BuildLog.Proofs.Viewer.Catchup
import BuildLog.Proofs.Viewer.Folding

/-!
# The selected section

A reader selects one of the sections that can be folded and goes from it to its neighbours. New lines
may make more sections foldable in between, but never fewer, so that the selected one stays foldable.
As it then has a line, its first row can be looked for, and the window is scrolled just far enough.

* `View.CanFold.commit`: a section stays foldable, whatever a batch holds.
* `Viewer.exists_neighbour_of_mem`: which section is selected next.
* `Viewer.top_revealSelected`: where the window is scrolled to.
* `Link.selection_in_sight`: a selection is valid and brought into view, in every state that is reached.
-/

namespace BuildLog

namespace View

/-- Whether a view has a section of some id with a toggle. -/
def CanFold (v : View) (id : Nat) : Prop := ∃ e ∈ v.entries, e.id = id ∧ e.hasToggle = true

/-- The section of some id begins in a row: the row shows its first line, and none above it is about
this section. -/
def FirstRow (v : View) (id row : Nat) : Prop :=
  ∃ above e l below, v.visible = above ++ (e, l) :: below ∧ above.length = row ∧ e.id = id ∧
    e.lines[0]? = some l ∧ ∀ shown ∈ above, shown.1.id ≠ id

variable {v : View} {id : Nat}

/-! ## Sections stay foldable -/

theorem CanFold.modify (h : v.CanFold id) (target : Nat) {f : Entry → Entry}
    (hId : ∀ e, (f e).id = e.id) (hToggle : ∀ e, e.hasToggle = true → (f e).hasToggle = true) :
    (v.modify target f).CanFold id :=
  exists_mem_modify h target fun e ⟨hSame, hHas⟩ => ⟨(hId e).trans hSame, hToggle e hHas⟩

/-- A section that can be folded still can behind any change. -/
theorem CanFold.apply (h : v.CanFold id) (c : Change) : (v.apply c).CanFold id := by
  cases c with
  | appendSection new after =>
    obtain ⟨e, he, hId, hHas⟩ := h
    refine ⟨e, ?_, hId, hHas⟩
    simp only [View.apply, View.appendSection, insertAt]
    split
    · exact Array.mem_insertIdx.mpr (.inr he)
    · exact Array.mem_push.mpr (.inl he)
  | appendLine | setOpen | setAttributes => exact h.modify _ (fun _ => rfl) fun _ hHas => hHas
  | attachToggle => exact h.modify _ (fun _ => rfl) fun _ _ => rfl

theorem CanFold.commit (h : v.CanFold id) (b : Batch) : (v.commit b).CanFold id := by
  unfold View.commit
  have hCounted : View.CanFold { v with commits := v.commits + 1 } id := h
  generalize { v with commits := v.commits + 1 } = w at hCounted ⊢
  induction b.changes generalizing w with
  | nil => exact hCounted
  | cons c changes ih => exact ih _ (hCounted.apply c)

theorem CanFold.toggle (h : v.CanFold id) (target : Nat) : (v.toggle target).1.CanFold id := by
  unfold View.toggle
  split
  · split
    · exact h.modify _ (fun _ => rfl) fun _ hHas => hHas
    · exact h
  · exact h

theorem CanFold.toggleAll (h : v.CanFold id) : v.toggleAll.CanFold id := by
  unfold View.toggleAll
  split
  · obtain ⟨e, he, hId, hHas⟩ := h
    refine ⟨_, Array.mem_map_of_mem he, ?_⟩
    split <;> exact ⟨hId, hHas⟩
  · exact h

/-! ## Sections of a mirrored view -/

variable {untouched : Prop} {sections : Array Section}

theorem Mirrors.exists_entry_of_canFold (h : v.Mirrors untouched sections) (hFold : v.CanFold id) :
    ∃ e, v.entries[id]? = some e ∧ e.id = id ∧ e.hasToggle = true := by
  obtain ⟨e, he, hId, hHas⟩ := hFold
  obtain ⟨i, hi⟩ := Array.getElem?_of_mem he
  obtain rfl : i = id := (h.id_eq hi).symm.trans hId
  exact ⟨e, hi, hId, hHas⟩

theorem Mirrors.toggle_eq (h : v.Mirrors untouched sections) {e : Entry}
    (he : v.entries[id]? = some e) (hHas : e.hasToggle = true) :
    (v.toggle id).1 =
      { v with entries := v.entries.modify id fun e => { e with isOpen := !e.isOpen } } := by
  have hLt : id < sections.size := h.size_eq ▸ (Array.getElem?_eq_some_iff.mp he).1
  have hPos : v.positions[id]? = some id := by rw [h.position, if_pos hLt]
  have hGet : v.get? id = some e := (h.get? id).trans he
  simp [View.toggle, hGet, hHas, View.modify, hPos]

theorem Mirrors.exists_split (h : v.Mirrors untouched sections) {e : Entry}
    (he : v.entries[id]? = some e) :
    ∃ front rest, v.entries.toList = front ++ e :: rest ∧ ∀ e' ∈ front, e'.id ≠ id := by
  obtain ⟨hLt, hGet⟩ := Array.getElem?_eq_some_iff.mp he
  refine ⟨v.entries.toList.take id, v.entries.toList.drop (id + 1), ?_, ?_⟩
  · rw [← hGet, ← Array.getElem_toList, ← List.drop_eq_getElem_cons, List.take_append_drop]
  · intro e' hFront
    obtain ⟨i, hi, hEntry⟩ := List.mem_take_iff_getElem.mp hFront
    have hOld : v.entries[i]? = some e' := by
      rw [← Array.getElem?_toList, ← hEntry]
      exact List.getElem?_eq_getElem _
    rw [h.id_eq hOld]
    omega

/-- Whether or not it is folded, a section begins with the row of its first line. -/
theorem Mirrors.exists_firstRow (h : v.Mirrors untouched sections) {e : Entry}
    (he : v.entries[id]? = some e) (hLines : e.lines ≠ #[]) : ∃ row, v.FirstRow id row := by
  obtain ⟨front, rest, hSplit, hFront⟩ := h.exists_split he
  have hSize : 0 < e.lines.size := Array.size_pos_iff.mpr hLines
  have hFirst : e.lines[0]? = some e.lines[0] := Array.getElem?_eq_getElem hSize
  obtain ⟨more, hMore⟩ : [e.lines[0]] <+: e.visible := by
    have hPrefix := Entry.first_prefix_visible (Section.Grows.refl e.shown)
    rwa [hFirst] at hPrefix
  refine ⟨_, front.flatMap fun e => e.visible.map (e, ·), e, e.lines[0],
    more.map (e, ·) ++ rest.flatMap fun e => e.visible.map (e, ·), ?_, rfl, h.id_eq he, hFirst, ?_⟩
  · rw [visible, hSplit, List.flatMap_append, List.flatMap_cons, ← hMore]
    simp
  · intro shown hShown
    obtain ⟨e', he', hRow⟩ := List.mem_flatMap.mp hShown
    obtain ⟨l, -, rfl⟩ := List.mem_map.mp hRow
    exact hFront e' he'

end View

namespace Viewer

/-! ## Selections stay valid -/

/-- Only a section that can be folded is selected. -/
def SelectsFoldable (v : Viewer) : Prop := ∀ id, v.selected = some id → v.view.CanFold id

theorem mem_foldable {v : Viewer} {id : Nat} : id ∈ v.foldable ↔ v.view.CanFold id := by
  simp [foldable, View.CanFold, and_assoc, and_left_comm, and_comm]

theorem Rescrolled.selected_eq {v w : Viewer} (h : v.Rescrolled w) : w.selected = v.selected := by
  obtain ⟨offset, following, rfl⟩ := h
  rfl

theorem SelectsFoldable.effect {v : Viewer} (h : v.SelectsFoldable) (e : Event) :
    (v.effect e).SelectsFoldable := by
  cases e with
  | quit | toggleTimestamps | scroll | viewport => exact h
  | toggleAll => exact fun id hSelected => (h id hSelected).toggleAll
  | toggleSelected =>
    rw [Viewer.effect]
    split
    · exact h
    · exact fun id hSelected => (h id hSelected).toggle _
  | selectNext | selectPrevious =>
    intro id hSelected
    obtain hNew | ⟨-, hOld⟩ := Option.or_eq_some_iff.mp hSelected
    · exact mem_foldable.mp (List.mem_of_getElem? hNew)
    · exact h id hOld

/-- No event selects a section that cannot be folded. -/
theorem SelectsFoldable.handle {v : Viewer} (h : v.SelectsFoldable) (e : Event) :
    (v.handle e).SelectsFoldable := by
  intro id hSelected
  have hScroll := v.rescrolled_handle e
  rw [hScroll.selected_eq] at hSelected
  rw [hScroll.view_eq]
  exact h.effect e id hSelected

theorem SelectsFoldable.receive {v : Viewer} (h : v.SelectsFoldable) (u : Update) :
    (v.receive u).SelectsFoldable := by
  cases u with
  | flush batch => exact fun id hSelected => (h id hSelected).commit batch
  | polled | fetchFailed | completed => exact h

theorem SelectsFoldable.run {v : Viewer} (h : v.SelectsFoldable) (steps : List Step) :
    (v.run steps).SelectsFoldable := by
  induction steps generalizing v with
  | nil => exact h
  | cons s steps ih =>
    cases s with
    | update u => exact ih (h.receive u)
    | event e => exact ih (h.handle e)

/-! ## The neighbour -/

/-- The section next to the selected one in some direction, without a selection the first or the last
one, and at the end of the list the selected one itself. -/
inductive Neighbour : List Nat → Direction → Option Nat → Nat → Prop
  | first (id : Nat) (rest : List Nat) : Neighbour (id :: rest) .next none id
  | last (front : List Nat) (id : Nat) : Neighbour (front ++ [id]) .previous none id
  | next (front : List Nat) (current id : Nat) (rest : List Nat) :
      Neighbour (front ++ current :: id :: rest) .next (some current) id
  | atEnd (front : List Nat) (current : Nat) :
      Neighbour (front ++ [current]) .next (some current) current
  | previous (front : List Nat) (id current : Nat) (rest : List Nat) :
      Neighbour (front ++ id :: current :: rest) .previous (some current) id
  | atStart (current : Nat) (rest : List Nat) :
      Neighbour (current :: rest) .previous (some current) current

theorem Neighbour.head?_eq {ids : List Nat} {id : Nat} (h : Neighbour ids .next none id) :
    ids.head? = some id := by
  cases h
  rfl

theorem exists_neighbour_of_none {ids : List Nat} (hSome : ids ≠ []) (direction : Direction) :
    ∃ id, ids[neighbour ids.length direction none]? = some id ∧
      Neighbour ids direction none id := by
  cases direction with
  | next =>
    obtain ⟨id, rest, rfl⟩ := List.exists_cons_of_ne_nil hSome
    exact ⟨id, rfl, .first id rest⟩
  | previous =>
    obtain rfl | ⟨front, id, rfl⟩ := List.eq_nil_or_concat ids
    · exact absurd rfl hSome
    · refine ⟨id, by simp [neighbour], ?_⟩
      rw [List.concat_eq_append]
      exact .last front id

/-- A section of a list has a neighbour in either direction, which at the end is the section
itself. -/
theorem exists_neighbour_of_mem {ids : List Nat} {current : Nat} (hMem : current ∈ ids)
    (direction : Direction) :
    ∃ id, ids[neighbour ids.length direction (ids.findIdx? (· = current))]? = some id ∧
      Neighbour ids direction (some current) id := by
  obtain ⟨front, rest, rfl, hFront⟩ := List.eq_append_cons_of_mem hMem
  have hNot : front.findIdx? (· = current) = none := by
    rw [List.findIdx?_eq_none_iff]
    intro id hId
    exact decide_eq_false fun hSame => hFront (hSame ▸ hId)
  have hPlace : (front ++ current :: rest).findIdx? (· = current) = some front.length := by
    simp [List.findIdx?_append, List.findIdx?_cons, hNot]
  rw [hPlace]
  -- What lies behind the selected one decides where to go next, and what lies in front where to go back.
  cases direction with
  | next =>
    cases rest with
    | nil => exact ⟨current, by simp [neighbour], .atEnd front current⟩
    | cons id rest => exact ⟨id, by simp [neighbour], .next front current id rest⟩
  | previous =>
    obtain rfl | ⟨before, id, rfl⟩ := List.eq_nil_or_concat front
    · exact ⟨current, rfl, .atStart current rest⟩
    · refine ⟨id, by simp [neighbour], ?_⟩
      rw [List.concat_eq_append, List.append_assoc]
      exact .previous before id current rest

/-- Where there is a section to fold, selecting goes to a neighbour. -/
theorem SelectsFoldable.exists_neighbour {v : Viewer} (h : v.SelectsFoldable) (hSome : v.foldable ≠ [])
    (direction : Direction) :
    ∃ id, v.neighbour? direction = some id ∧ Neighbour v.foldable direction v.selected id := by
  unfold neighbour?
  cases hSelected : v.selected with
  | none => exact exists_neighbour_of_none hSome direction
  | some current =>
    exact exists_neighbour_of_mem (mem_foldable.mpr (h current hSelected)) direction

/-! ## Bringing a section into view -/

theorem rowOf?_of_firstRow {v : Viewer} {id row : Nat} (h : v.view.FirstRow id row) :
    v.rowOf? id = some row := by
  obtain ⟨above, e, l, below, hVisible, rfl, hId, -, hAbove⟩ := h
  have hNot : above.findIdx? (fun shown => shown.1.id = id) = none := by
    rw [List.findIdx?_eq_none_iff]
    exact fun shown hShown => decide_eq_false (hAbove shown hShown)
  rw [rowOf?, hVisible, List.findIdx?_append, hNot]
  simp [List.findIdx?_cons, hId]

theorem lt_rowCount_of_firstRow {v : Viewer} {id row : Nat} (h : v.view.FirstRow id row) :
    row < v.rowCount := by
  obtain ⟨above, e, l, below, hVisible, rfl, -⟩ := h
  rw [rowCount, ← View.length_visible, hVisible, List.length_append, List.length_cons]
  omega

/-- The row at the top after moving a window just far enough that it shows some row. -/
def revealing (top rows row : Nat) : Nat :=
  if row < top then row else if top + rows ≤ row then row + 1 - rows else top

theorem revealing_spec (top row : Nat) {rows : Nat} (hRows : 1 ≤ rows) :
    revealing top rows row ≤ row ∧ row < revealing top rows row + rows := by
  unfold revealing
  split
  · omega
  · split <;> omega

/-- There are enough rows below the one that the window is to begin with, so that it does. -/
theorem top_revealSelected {v : Viewer} {id row : Nat} (hSelected : v.selected = some id)
    (hRow : v.view.FirstRow id row) :
    v.revealSelected.top = revealing v.top v.paneRows row := by
  have hLt := lt_rowCount_of_firstRow hRow
  have hTop := v.top_le_maxTop
  have hMax : v.maxTop = v.rowCount - v.paneRows := rfl
  simp only [revealSelected, revealing, hSelected, Option.bind_some, rowOf?_of_firstRow hRow]
  split
  · rw [top_scrollTo]
    omega
  · split
    · rw [top_scrollTo]
      omega
    · rfl

/-- Selecting a section changes which one is selected, and scrolls to its first row. -/
theorem select_of_neighbour {v : Viewer} {direction : Direction} {id row : Nat}
    (hNeighbour : v.neighbour? direction = some id) (hRow : v.view.FirstRow id row) :
    let w := v.select direction
    w = { v with selected := some id, scroll := w.scroll } ∧ w.scroll.rows = v.scroll.rows ∧
      w.top = revealing v.top v.paneRows row := by
  intro w
  have hSelect : w = { v with selected := some id }.revealSelected := by
    rw [show w = v.select direction from rfl, select_eq, hNeighbour]
  have hScroll := rescrolled_revealSelected { v with selected := some id }
  have hTop := top_revealSelected (v := { v with selected := some id }) rfl hRow
  rw [← hSelect] at hScroll hTop
  refine ⟨?_, hScroll.rows_eq, hTop⟩
  obtain ⟨offset, following, hOnly⟩ := hScroll
  rw [hOnly]

theorem select_of_foldable_eq_nil {v : Viewer} (h : v.foldable = []) (direction : Direction) :
    v.select direction = v := by
  simp [select, h]

/-- The event by which a reader selects in some direction. -/
def Direction.event : Direction → Event
  | .next => .selectNext
  | .previous => .selectPrevious

theorem handle_event (v : Viewer) (direction : Direction) :
    v.handle direction.event = v.select direction := by
  cases direction <;> rfl

end Viewer

namespace Link

/-- All that happens to the viewer of a link is that it takes in messages and events. -/
theorem exists_steps (l : Link) (actions : List Action) :
    ∃ steps, (l.run actions).viewer = l.viewer.run steps := by
  induction actions generalizing l with
  | nil => exact ⟨[], rfl⟩
  | cons a actions ih =>
    obtain ⟨steps, hSteps⟩ := ih (l.act a)
    have hRun : (l.run (a :: actions)).viewer = (l.act a).viewer.run steps := hSteps
    cases a with
    | input | report => exact ⟨steps, hRun⟩
    | event e => exact ⟨.event e :: steps, hRun⟩
    | receive =>
      cases hQueue : l.channel.queue with
      | nil =>
        refine ⟨steps, ?_⟩
        simpa only [act, hQueue] using hRun
      | cons u later =>
        refine ⟨.update u :: steps, ?_⟩
        simp only [act, hQueue] at hRun
        exact hRun

section

variable (deferred : Bool) (label : String) (showTimestamps : Bool) (actions : List Action)

theorem selectsFoldable_run :
    ((start deferred label showTimestamps).run actions).viewer.SelectsFoldable := by
  obtain ⟨steps, hSteps⟩ := (start deferred label showTimestamps).exists_steps actions
  rw [hSteps]
  refine Viewer.SelectsFoldable.run ?_ steps
  intro id hSelected
  cases hSelected

theorem one_le_rows_run :
    1 ≤ ((start deferred label showTimestamps).run actions).viewer.scroll.rows := by
  obtain ⟨steps, hSteps⟩ := (start deferred label showTimestamps).exists_steps actions
  rw [hSteps]
  exact Viewer.one_le_rows_run (Nat.le_refl 1) steps

theorem exists_mirrors_run :
    ∃ sections,
      ((start deferred label showTimestamps).run actions).viewer.view.Mirrors False sections := by
  obtain ⟨sections, hMirrors, -⟩ := ((start_linked deferred label showTimestamps).run actions).brings
  exact ⟨sections, hMirrors⟩

/-- Every section that can be folded begins in some row. -/
theorem exists_firstRow_run {id : Nat}
    (hFold : ((start deferred label showTimestamps).run actions).viewer.view.CanFold id) :
    ∃ row, ((start deferred label showTimestamps).run actions).viewer.view.FirstRow id row := by
  obtain ⟨sections, hMirrors⟩ := exists_mirrors_run deferred label showTimestamps actions
  obtain ⟨e, he, -, hHas⟩ := hMirrors.exists_entry_of_canFold hFold
  have hLines := lines_of_hasToggle deferred label showTimestamps actions e
    (Array.mem_of_getElem? he) hHas
  exact hMirrors.exists_firstRow he hLines

end

/-- **A selection is valid and brought into view.** Whatever has been read, sent, taken in and done by
the reader, the selected section is one with a toggle, and folding it flips this section and changes
nothing else in the view. Selecting does nothing without a section that can be folded. Otherwise it
leads to the neighbour, and the row that the section begins with is then in the window, which has
been moved just as far as it takes. -/
theorem selection_in_sight (deferred : Bool) (label : String) (showTimestamps : Bool)
    (actions : List Action) :
    let v := ((start deferred label showTimestamps).run actions).viewer
    (∀ id, v.selected = some id →
      (∃ e, v.view.entries[id]? = some e ∧ e.id = id ∧ e.hasToggle = true) ∧
      (v.handle .toggleSelected).view =
        { v.view with entries := v.view.entries.modify id fun e => { e with isOpen := !e.isOpen } }) ∧
    v.foldable.Nodup ∧
    ∀ direction : Viewer.Direction,
      let w := v.handle direction.event
      (v.foldable = [] → w = v) ∧
      (v.foldable ≠ [] → ∃ id row, Viewer.Neighbour v.foldable direction v.selected id ∧
        w = { v with selected := some id, scroll := w.scroll } ∧
        w.scroll.rows = v.scroll.rows ∧ v.view.FirstRow id row ∧
        w.top ≤ row ∧ row < w.top + w.scroll.rows ∧
        w.top = Viewer.revealing v.top v.scroll.rows row) := by
  intro v
  obtain ⟨sections, hMirrors⟩ := exists_mirrors_run deferred label showTimestamps actions
  have hValid : v.SelectsFoldable := selectsFoldable_run deferred label showTimestamps actions
  have hRows : 1 ≤ v.scroll.rows := one_le_rows_run deferred label showTimestamps actions
  refine ⟨?_, ?_, ?_⟩
  · intro id hSelected
    obtain ⟨e, he, hId, hHas⟩ := hMirrors.exists_entry_of_canFold (hValid id hSelected)
    refine ⟨⟨e, he, hId, hHas⟩, ?_⟩
    rw [← hMirrors.toggle_eq he hHas, (v.rescrolled_handle .toggleSelected).view_eq, Viewer.effect,
      hSelected]
  · have hSub : v.foldable.Sublist (v.view.entries.toList.map (·.id)) := List.filter_sublist.map _
    rw [hMirrors.ids_eq_range] at hSub
    exact hSub.nodup List.nodup_range
  · intro direction w
    have hSelect : w = v.select direction := v.handle_event direction
    refine ⟨fun hNone => hSelect.trans (Viewer.select_of_foldable_eq_nil hNone direction), ?_⟩
    intro hSome
    obtain ⟨id, hNeighbour, hIs⟩ := hValid.exists_neighbour hSome direction
    have hFold := Viewer.mem_foldable.mp (List.mem_of_getElem? hNeighbour)
    obtain ⟨row, hRow⟩ := exists_firstRow_run deferred label showTimestamps actions hFold
    obtain ⟨hOnly, hHeight, hTop⟩ := Viewer.select_of_neighbour hNeighbour hRow
    rw [← hSelect] at hOnly hHeight hTop
    rw [show v.paneRows = v.scroll.rows from Nat.max_eq_left hRows] at hTop
    obtain ⟨hAbove, hBelow⟩ := Viewer.revealing_spec v.top row hRows
    rw [← hTop] at hAbove hBelow
    exact ⟨id, row, hIs, hOnly, hHeight, hRow, hAbove, hHeight ▸ hBelow, hTop⟩

/-- With one task in the log, a reader who has selected nothing comes to this task. -/
theorem selection_in_sight_of_passed_task :
    let v := ((start false "log" false).run [.input (.lines Viewer.passedLines), .receive]).viewer
    let w := v.handle Viewer.Direction.next.event
    v.foldable = [0] ∧ v.selected = none ∧ w.selected = some 0 ∧
      ∃ row, v.view.FirstRow 0 row ∧ w.top ≤ row ∧ row < w.top + 1 := by
  intro v w
  have hRun : v = Viewer.run { label := "log", showTimestamps := false } Viewer.passedSteps := rfl
  rw [Viewer.run_passedSteps rfl] at hRun
  have hSelected : v.selected = none := by rw [hRun]
  have hRows : v.scroll.rows = 1 := by rw [hRun]
  have hFoldable : v.foldable = [0] := by
    have hBare : v.foldable =
        ((Viewer.bare v.view).entries.toList.filter fun e => e.hasToggle).map (·.id) := rfl
    rw [hBare, hRun, Viewer.bare_passed]
    decide +kernel
  obtain ⟨-, -, hSelects⟩ := selection_in_sight false "log" false
    [.input (.lines Viewer.passedLines), .receive]
  obtain ⟨-, hSome⟩ := hSelects .next
  obtain ⟨id, row, hIs, hOnly, hHeight, hRow, hAbove, hBelow, -⟩ :=
    hSome fun hNone => List.cons_ne_nil 0 [] (hFoldable.symm.trans hNone)
  rw [hSelected] at hIs
  have hFirst := hIs.head?_eq
  rw [hFoldable] at hFirst
  obtain rfl : 0 = id := Option.some.inj hFirst
  have hNow : w.selected = some 0 := by rw [show w = _ from hOnly]
  have hHeightNow : w.scroll.rows = 1 := hHeight.trans hRows
  exact ⟨hFoldable, hSelected, hNow, row, hRow, hAbove, hHeightNow ▸ hBelow⟩

end Link

end BuildLog
