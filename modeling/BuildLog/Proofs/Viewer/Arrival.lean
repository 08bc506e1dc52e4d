import BuildLog.Proofs.Viewer.Delivery
import BuildLog.Proofs.Viewer.Folding

/-!
# New lines under a scrolled reader

New lines may arrive while a reader is looking at earlier ones. Their batch can fold the last section
and so shorten the log, but it does nothing to the rows of the sections in front of the last one, or
to the first row of that one.

* `View.steadyCount`: how many rows these are.
* `View.exists_row_of_lt_steadyCount`: each of them shows the same line of the same section.
* `Link.reader_unmoved`: so a reader who does not follow the end of the log is not moved.
-/

namespace BuildLog

namespace View

/-- The rows of an entry: the id of its section, the number of the line in it, and the line. -/
def Entry.rows (e : Entry) : List (Nat × Nat × Line) :=
  e.visible.zipIdx.map fun (l, ordinal) => (e.id, ordinal, l)

/-- The rows on display, with the section and the number of the line that each shows. -/
def rows (v : View) : List (Nat × Nat × Line) := v.entries.toList.flatMap Entry.rows

/-- The number of rows of all entries but the last, and of the first line of the last one. -/
def steadyCount (v : View) : Nat :=
  (v.entries.toList.dropLast.map Entry.visibleCount).sum +
    (v.entries.back?.bind (·.lines[0]?)).toList.length

def Entry.firstRow (e : Entry) : List (Nat × Nat × Line) := e.lines[0]?.toList.map (e.id, 0, ·)

/-- These rows. -/
def steady (v : View) : List (Nat × Nat × Line) :=
  v.entries.toList.dropLast.flatMap Entry.rows ++ v.entries.back?.toList.flatMap Entry.firstRow

/-- Apart from the numbers, the rows are those that a window is cut out of. -/
theorem map_rows (v : View) :
    (v.rows.map fun (id, _, l) => (id, l)) = v.visible.map fun (e, l) => (e.id, l) := by
  have hEntry (e : Entry) :
      e.rows.map (fun (id, _, l) => (id, l)) = (e.visible.map (e, ·)).map fun (e, l) => (e.id, l) := by
    have hLines : e.visible.zipIdx.map Prod.fst = e.visible := List.zipIdx_map_fst 0 e.visible
    conv_rhs => rw [← hLines]
    simp only [Entry.rows, List.map_map]
    rfl
  simp only [rows, visible, List.map_flatMap, hEntry]

/-- A row of the numbered ones stands at the same place of those that a window is cut out of. -/
theorem exists_visible_of_rows {v : View} {k : Nat} {row : Nat × Nat × Line}
    (h : v.rows[k]? = some row) : ∃ e, v.visible[k]? = some (e, row.2.2) ∧ e.id = row.1 := by
  have hMap := congrArg (·[k]?) v.map_rows
  simp only [List.getElem?_map, h, Option.map_some] at hMap
  obtain ⟨⟨e, l⟩, hVisible, hRow⟩ := Option.map_eq_some_iff.mp hMap.symm
  obtain ⟨hId, hLine⟩ := Prod.mk.inj hRow
  exact ⟨e, hLine ▸ hVisible, hId⟩

theorem length_steady (v : View) : v.steady.length = v.steadyCount := by
  have hFront (entries : List Entry) :
      (entries.flatMap Entry.rows).length = (entries.map Entry.visibleCount).sum := by
    simp [List.length_flatMap, Entry.rows, Entry.length_visible]
  rw [steady, List.length_append, hFront, steadyCount]
  cases v.entries.back? with
  | none => rfl
  | some e => simp [Entry.firstRow]

/-- The first row of an entry stays its first while it grows. -/
theorem Entry.firstRow_prefix {e e' : Entry} (h : e.Grows e') : e.firstRow <+: e'.rows := by
  have hId : e'.id = e.id := h.id
  have hLine := first_prefix_visible h
  unfold firstRow rows
  rw [hId]
  cases hFirst : e.lines[0]? with
  | none => exact List.nil_prefix
  | some l =>
    rw [hFirst] at hLine
    obtain ⟨more, hMore⟩ := hLine
    rw [← hMore]
    simp

/-- Where only the last entry grows, the rows above the growing part are the same as before. -/
theorem exists_row_of_lt_steadyCount {v w : View} (h : v.Keeps w) {k : Nat}
    (hk : k < v.steadyCount) : ∃ row, v.rows[k]? = some row ∧ w.rows[k]? = some row := by
  rw [← length_steady] at hk
  have hRow {u : View} (hEntries : OnlyLast Entry.Grows v.entries u.entries) :
      u.rows[k]? = some v.steady[k] := by
    have hKept : v.steady <+: u.rows := flatMap_prefix hEntries fun _ _ => Entry.firstRow_prefix
    obtain ⟨later, hRows⟩ := hKept
    rw [← hRows, List.getElem?_append_left hk]
    exact List.getElem?_eq_getElem hk
  exact ⟨v.steady[k], hRow (Keeps.refl v).entries, hRow h.entries⟩

end View

namespace Viewer

/-- A viewer that does not follow the end of the log stays at its row, as far as possible. -/
theorem top_receive_flush {v : Viewer} (h : v.scroll.following = false) (b : Batch) :
    (v.receive (.flush b)).top = min v.top (v.receive (.flush b)).maxTop := by
  have hFollowing : (v.receive (.flush b)).scroll.following = false := by
    rw [following_receive, h]
  have hOffset : (v.receive (.flush b)).scroll.offset = v.top := by
    simp [receive, h]
  rw [top_of_not_following hFollowing, hOffset]

end Viewer

namespace Link

/-- **New lines do not move a reader who does not follow the end of the log.** The viewer stays at its
top row, or at the last row that a window can begin with if the log has become too short; and all
rows of the sections in front of the last one, and the row with its first line, show the same lines
of the same sections as before, with the same numbers; windows are cut out of these rows. -/
theorem reader_unmoved (deferred : Bool) (label : String) (showTimestamps : Bool)
    (actions : List Action) {b : Batch} {later : List Update}
    (hNext : ((start deferred label showTimestamps).run actions).channel.queue = .flush b :: later)
    (hScrolled :
      ((start deferred label showTimestamps).run actions).viewer.scroll.following = false) :
    let v := ((start deferred label showTimestamps).run actions).viewer
    let w := v.receive (.flush b)
    w.top = min v.top w.maxTop ∧ (v.top ≤ w.maxTop → w.top = v.top) ∧
    ∀ k, k < v.view.steadyCount →
      ∃ row, (v.view.rows[k]? = some row ∧ w.view.rows[k]? = some row) ∧
        (∃ e, v.view.visible[k]? = some (e, row.2.2) ∧ e.id = row.1) ∧
        ∃ e, w.view.visible[k]? = some (e, row.2.2) ∧ e.id = row.1 := by
  intro v w
  have hTop : w.top = min v.top w.maxTop := Viewer.top_receive_flush hScrolled b
  have hLinked := (start_linked deferred label showTimestamps).run actions
  obtain ⟨sections, hMirrors, hBrings⟩ := hLinked.brings
  rw [hNext] at hBrings
  cases hBrings with
  | cons hTells _ =>
    have hKeeps : v.view.Keeps w.view := hTells.keeps v.view hMirrors
    refine ⟨hTop, fun hFits => hTop.trans (Nat.min_eq_left hFits), fun k hk => ?_⟩
    obtain ⟨row, hBefore, hAfter⟩ := View.exists_row_of_lt_steadyCount hKeeps hk
    exact ⟨row, ⟨hBefore, hAfter⟩, View.exists_visible_of_rows hBefore,
      View.exists_visible_of_rows hAfter⟩

/-- A reader who has scrolled up behind a folded task is told of the next one. -/
theorem reader_unmoved_of_next_task :
    let l := (start false "log" false).run [.input (.lines Viewer.passedLines), .receive,
      .event .toggleAll, .event (.scroll .lineUp), .input (.lines ["##|10:00:03.000 next".toList])]
    ∃ b later, l.channel.queue = .flush b :: later ∧ l.viewer.scroll.following = false ∧
      (l.viewer.receive (.flush b)).top = min 1 (l.viewer.receive (.flush b)).maxTop := by
  intro l
  obtain ⟨view, hFolded, -, hRun⟩ := Viewer.run_scrolled
  have hViewer : l.viewer =
      { label := "log", showTimestamps := false, view := view, scroll := ⟨1, false, 1⟩ } := hRun
  have hScrolled : l.viewer.scroll.following = false := by rw [hViewer]
  have hTop : l.viewer.top = 1 := by
    simp [hViewer, Viewer.top, Viewer.maxTop, Viewer.rowCount, Viewer.paneRows, hFolded]
  refine ⟨_, _, rfl, hScrolled, ?_⟩
  obtain ⟨hStays, -⟩ := reader_unmoved false "log" false _ rfl hScrolled
  rw [← hTop]
  exact hStays

end Link

end BuildLog
