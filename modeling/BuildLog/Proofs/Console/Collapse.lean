import BuildLog.Proofs.Console.Coherence

/-!
# Folding all sections together

Sections are folded together by their kind, while it is the toggle that hides a section's lines. As a
section with a toggle has a kind, folding all sections leaves one line of each that can be folded,
and unfolding them leaves nothing hidden, whichever had been folded one by one before.

* `View.Collapsible`: sections are folded together only if one of them has a kind.
* `Console.run_collapsible`: this holds whatever the log holds and the reader does.
* `Console.run_collapses`: what folding and unfolding all sections does, in every state reached.
-/

namespace BuildLog

namespace View

/-- If all sections have been folded together, some section has a kind. -/
def Collapsible (v : View) : Prop := v.collapsed = true → v.isFoldable = true

/-- How an entry looks once all sections are folded or unfolded. -/
def Entry.refold (isOpen : Bool) (e : Entry) : Entry :=
  if e.isTyped then { e with isOpen := isOpen } else e

theorem isFoldable_iff {v : View} : v.isFoldable = true ↔ ∃ e ∈ v.entries, e.isTyped = true := by
  simp only [isFoldable, Array.any_eq_true']

theorem toggleAll_of_not_foldable {v : View} (h : v.isFoldable = false) : v.toggleAll = v := by
  simp [toggleAll, h]

theorem toggleAll_of_foldable {v : View} (h : v.isFoldable = true) :
    v.toggleAll =
      { v with collapsed := !v.collapsed, entries := v.entries.map (.refold v.collapsed) } := by
  simp [toggleAll, h, Entry.refold]

/-! ## Kinds are never lost -/

/-- A section does not lose its kind, so what can be folded stays foldable. -/
theorem isFoldable_of_onlyLast {v w : View} (h : OnlyLast Entry.Grows v.entries w.entries)
    (hFoldable : v.isFoldable = true) : w.isFoldable = true := by
  rw [isFoldable_iff] at hFoldable ⊢
  obtain ⟨e, he, hTyped⟩ := hFoldable
  obtain ⟨i, hi⟩ := Array.getElem?_of_mem he
  have hLt := (Array.getElem?_eq_some_iff.mp hi).1
  by_cases hLast : i + 1 < v.entries.size
  · exact ⟨e, Array.mem_of_getElem? ((h.same i hLast).trans hi), hTyped⟩
  · have hBack : v.entries.back? = some e := by
      rw [Array.back?_eq_getElem?, ← hi]
      congr 1
      omega
    obtain ⟨e', he', hGrows⟩ := h.last e hBack
    have hKind : e'.attributes.kind = e.attributes.kind := hGrows.kind hTyped
    exact ⟨e', Array.mem_of_getElem? he', by rwa [Entry.isTyped, hKind]⟩

theorem Collapsible.commit {v : View} (h : v.Collapsible) {b : Batch}
    (hGrows : OnlyLast Entry.Grows v.entries (v.commit b).entries) : (v.commit b).Collapsible := by
  intro hCollapsed
  rw [collapsed_commit] at hCollapsed
  exact isFoldable_of_onlyLast hGrows (h hCollapsed)

theorem Collapsible.toggle {v : View} (h : v.Collapsible) (id : Nat) :
    (v.toggle id).1.Collapsible := by
  unfold View.toggle
  split
  · split
    · intro hCollapsed
      rw [collapsed_modify] at hCollapsed
      exact isFoldable_iff.mpr
        (exists_mem_modify (isFoldable_iff.mp (h hCollapsed)) id fun _ hTyped => hTyped)
    · exact h
  · exact h

/-- Folding all sections sets the flag for a reason: there is a section to fold. -/
theorem Collapsible.toggleAll {v : View} (h : v.Collapsible) : v.toggleAll.Collapsible := by
  cases hFoldable : v.isFoldable with
  | false => rwa [toggleAll_of_not_foldable hFoldable]
  | true =>
    intro _
    obtain ⟨e, he, hTyped⟩ := isFoldable_iff.mp hFoldable
    rw [toggleAll_of_foldable hFoldable, isFoldable_iff]
    refine ⟨e.refold v.collapsed, Array.mem_map_of_mem he, ?_⟩
    rw [Entry.refold, if_pos hTyped]
    exact hTyped

/-! ## What is on display -/

theorem Entry.visible_of_open {e : Entry} (h : e.hasToggle = true → e.isOpen = true) :
    e.visible = e.lines.toList := by
  have hFolded : e.isFolded = false := by
    cases hToggle : e.hasToggle with
    | false => simp [isFolded, hToggle]
    | true => simp [isFolded, h hToggle]
  simp [visible, hFolded]

/-- A closed section shows its first line and no other. -/
theorem Entry.exists_visible_of_closed {e : Entry} (hToggle : e.hasToggle = true)
    (hClosed : e.isOpen = false) (hLines : 1 ≤ e.lines.size) :
    ∃ l, e.lines[0]? = some l ∧ e.visible = [l] := by
  have hFirst : e.lines[0]? = some e.lines[0] := Array.getElem?_eq_getElem hLines
  have hFolded : e.isFolded = true := by simp [isFolded, hToggle, hClosed]
  refine ⟨e.lines[0], hFirst, ?_⟩
  rw [visible, if_pos hFolded, List.take_one, List.head?_eq_getElem?, Array.getElem?_toList, hFirst]
  rfl

/-- Where no section hides a line, all lines of the log are on display. -/
theorem Coherent.shown_of_open {v : View} {log : List Text} (h : v.Coherent log)
    (hOpen : ∀ e ∈ v.entries, e.hasToggle = true → e.isOpen = true) :
    Line.Shown (v.visible.map (·.2)) log ∧
      v.visible.map (·.2.ordinal) = List.range' 1 v.lineCount := by
  have hLines : v.visible.map (·.2) = v.entries.toList.flatMap (·.lines.toList) := by
    rw [map_snd_visible]
    exact List.flatMap_congr fun e he =>
      Entry.visible_of_open (hOpen e (Array.mem_toList_iff.mp he))
  have hShown : Line.Shown (v.visible.map (·.2)) log := hLines ▸ h.lines
  have hCount : v.lineCount = log.length := by
    rw [← hShown.length_eq, hLines]
    simp [lineCount, List.length_flatMap, List.sum, List.foldr_map]
  refine ⟨hShown, ?_⟩
  rw [hCount, ← hShown.map_ordinal, List.map_map]
  rfl

/-! ## Behind folding all sections -/

/-- A section with a toggle has a kind, so it is open exactly if the sections are not folded. -/
theorem Coherent.isOpen_toggleAll {v : View} {log : List Text} (h : v.Coherent log) :
    ∀ e ∈ v.toggleAll.entries, e.hasToggle = true → e.isOpen = !v.toggleAll.collapsed := by
  intro e he hToggle
  cases hFoldable : v.isFoldable with
  | false =>
    rw [toggleAll_of_not_foldable hFoldable] at he
    have hSome := isFoldable_iff.mpr ⟨e, he, (h.toggled e he hToggle).1⟩
    simp [hFoldable] at hSome
  | true =>
    rw [toggleAll_of_foldable hFoldable] at he ⊢
    obtain ⟨e', he', rfl⟩ := Array.mem_map.mp he
    have hSame : (e'.refold v.collapsed).hasToggle = e'.hasToggle := by
      unfold Entry.refold
      split <;> rfl
    have hTyped := (h.toggled e' he' (hSame ▸ hToggle)).1
    simp [Entry.refold, hTyped]

/-- What is left of the sections of a log once they are folded together. -/
theorem Coherent.visible_of_collapsed {v : View} {log : List Text} (h : v.Coherent log)
    (hClosed : ∀ e ∈ v.entries, e.hasToggle = true → e.isOpen = false) :
    ∀ e ∈ v.entries, if e.hasToggle then ∃ l, e.lines[0]? = some l ∧ e.visible = [l]
      else e.visible = e.lines.toList := by
  intro e he
  split
  · next hToggle =>
    have hLines := (h.toggled e he hToggle).2
    exact Entry.exists_visible_of_closed hToggle (hClosed e he hToggle) (Nat.le_of_succ_le hLines)
  · next hToggle => exact Entry.visible_of_open fun hHas => absurd hHas hToggle

end View

namespace Console

theorem Synced.collapsible_act {untouched : Prop} {c : Console} (h : c.Synced untouched)
    (hCollapsible : c.view.Collapsible) (a : Action) : (c.act a).view.Collapsible := by
  cases a with
  | input i =>
    obtain ⟨given, raws, hReached⟩ := h.reached
    have hKeeps : c.view.Keeps (commit? c.view (c.grouping.act i).2) := by
      rw [Grouping.act_eq_process]
      exact View.keeps_process (hReached.has.prepare i) (by simpa using h.mirrors) _
    have hView : (c.act (.input i)).view = commit? c.view (c.grouping.act i).2 := rfl
    rw [hView]
    cases hBatch : (c.grouping.act i).2 with
    | none => exact hCollapsible
    | some b =>
      rw [hBatch] at hKeeps
      exact hCollapsible.commit hKeeps.entries
  | toggle id => exact hCollapsible.toggle id
  | toggleAll => exact hCollapsible.toggleAll

theorem run_collapsible (deferred : Bool) (actions : List Action) :
    (run { grouping := { deferred := deferred } } actions).view.Collapsible := by
  induction actions using List.reverseRecOn with
  | nil =>
    intro hCollapsed
    cases hCollapsed
  | append_singleton actions a ih =>
    have hSynced := (synced_new False deferred).run actions fun _ _ _ => not_false
    rw [run, List.foldl_append]
    exact hSynced.collapsible_act ih a

/-- **Folding all sections covers everything**, whichever sections have been folded one by one. Where
no section has a kind it does nothing. Otherwise it turns over whether the sections are folded
together, which is what the reader is told, and folds or unfolds those that have a kind. Once they
are folded, the first line of each section with a toggle is left, and all lines of each other one;
once they are not, the log is on display, line by line. -/
theorem run_collapses (deferred : Bool) (actions : List Action) :
    let c := run { grouping := { deferred := deferred } } actions
    let log := (logOf actions).take c.grouping.lineCount
    let v := c.view
    let w := v.toggleAll
    (∀ e ∈ v.entries, e.hasToggle = true → e.isTyped = true) ∧
      ((∀ e ∈ v.entries, e.isTyped = false) → w = v ∧ w.collapsed = false) ∧
      ((∃ e ∈ v.entries, e.isTyped = true) →
        w = { v with collapsed := !v.collapsed, entries := v.entries.map (.refold v.collapsed) }) ∧
      (w.collapsed = true → ∀ e ∈ w.entries,
        if e.hasToggle then ∃ l, e.lines[0]? = some l ∧ e.visible = [l]
        else e.visible = e.lines.toList) ∧
      (w.collapsed = false → Line.Shown (w.visible.map (·.2)) log ∧
        w.visible.map (·.2.ordinal) = List.range' 1 w.lineCount) := by
  intro c log v w
  have hBefore : v.Coherent log := run_coherent deferred actions
  have hBehind : w.Coherent log := by
    have hLog : logOf (actions ++ [.toggleAll]) = logOf actions := by simp [logOf, Action.input?]
    have hRun := run_coherent deferred (actions ++ [.toggleAll])
    simp only [run, List.foldl_append, hLog] at hRun
    exact hRun
  have hReason : v.Collapsible := run_collapsible deferred actions
  have hOpen : ∀ e ∈ w.entries, e.hasToggle = true → e.isOpen = !w.collapsed :=
    hBefore.isOpen_toggleAll
  refine ⟨?typed, ?unfoldable, ?foldable, ?folded, ?unfolded⟩
  case typed => exact fun e he hToggle => (hBefore.toggled e he hToggle).1
  case unfoldable =>
    intro hNone
    have hFoldable : v.isFoldable = false := by
      rw [Bool.eq_false_iff, Ne, View.isFoldable_iff]
      rintro ⟨e, he, hTyped⟩
      simp [hNone e he] at hTyped
    have hSame : w = v := View.toggleAll_of_not_foldable hFoldable
    refine ⟨hSame, ?_⟩
    rw [hSame, Bool.eq_false_iff]
    intro hCollapsed
    simp [hReason hCollapsed] at hFoldable
  case foldable => exact fun hSome => View.toggleAll_of_foldable (View.isFoldable_iff.mpr hSome)
  case folded =>
    intro hCollapsed
    exact hBehind.visible_of_collapsed fun e he hToggle => by simp [hOpen e he hToggle, hCollapsed]
  case unfolded =>
    intro hCollapsed
    exact hBehind.shown_of_open fun e he hToggle => by simp [hOpen e he hToggle, hCollapsed]

end Console

end BuildLog
