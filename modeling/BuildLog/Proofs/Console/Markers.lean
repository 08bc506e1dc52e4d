import BuildLog.Proofs.Console.Coherence
import BuildLog.Text.Columns
import BuildLog.View.Row

/-!
# Fold markers

A row knows the first line of its section by its ordinal. Ordinals are never given twice, so of the
rows of a section that can be folded the first one is marked and no other. It is marked as closed
where the section is folded; as such a section has a second line, something is hidden then.

* `Row.mark`: how a section's row is to be marked, from its place and from what is on display.
* `View.Entry.marker_eq_mark`: rows are marked like this wherever ordinals are not given twice.
* `Console.run_marked`: so are the rows of every console that is reached.
-/

namespace BuildLog

namespace Row

/-- The gutter of the row at a place of its section, from zero. Only the first row of a section that
can be folded is marked: by a triangle that points to the right if a line of the section is hidden,
else by one that points down. All other rows begin with two blanks. -/
def mark (e : View.Entry) (place : Nat) : Text :=
  if e.hasToggle = true ∧ place = 0 then
    if e.visible.length < e.lines.size then ['▸', ' '] else ['▾', ' ']
  else [' ', ' ']

/-- What stands between the gutter and the line. -/
def stamp (options : Options) (l : Line) : Text :=
  if options.showTimestamps then
    List.replicate (12 - l.timestamp.length) ' ' ++ l.timestamp ++ [' ']
  else []

/-- Whether the gutter of a row is reversed. -/
def isReversed (r : Row) : Bool := r.head?.any (·.style.modifiers.reversed)

theorem width_mark (e : View.Entry) (place : Nat) : Text.width (mark e place) = 2 := by
  have hMarks : Text.width ['▾', ' '] = 2 ∧ Text.width ['▸', ' '] = 2 := by decide +kernel
  unfold mark
  split
  · split
    · exact hMarks.2
    · exact hMarks.1
  · rfl

theorem plain_cons (run : Run) (r : Row) : plain (run :: r) = run.text ++ plain r := rfl

theorem plain_append (r r' : Row) : plain (r ++ r') = plain r ++ plain r' := List.flatMap_append

theorem plain_ofLine (options : Options) (e : View.Entry) (l : Line) :
    plain (ofLine options e l) = marker e l ++ (stamp options l ++ l.plain) := by
  have hStamp : plain (if options.showTimestamps then [timestamp l] else []) = stamp options l := by
    unfold stamp
    split
    · simp [plain, timestamp, timestampColumns, List.leftpad]
    · rfl
  rw [ofLine, plain_cons, plain_append, plain_filterMap_segmentRun?, hStamp]
  rfl

/-- Only the first row of the selected section has a reversed gutter. -/
theorem isReversed_ofLine (options : Options) (e : View.Entry) (l : Line) :
    isReversed (ofLine options e l) = (decide (options.selected = some e.id) && isFirst e l) := rfl

/-- All rows of a view, section by section. -/
theorem window_eq_flatMap (v : View) (spare : Nat) (options : Options) :
    window v 0 (v.visibleCount + spare) options =
      v.entries.toList.flatMap fun e => e.visible.map (ofLine options e) := by
  have hAll : v.visible.take (v.visibleCount + spare) = v.visible :=
    List.take_of_length_le (by simp [View.length_visible])
  rw [window, List.drop_zero, hAll, View.visible, List.map_flatMap]
  simp [Function.comp_def]

end Row

namespace View.Entry

/-- What is on display of a section are its first lines. -/
theorem getElem?_lines_of_visible {e : Entry} {place : Nat} {l : Line}
    (hl : e.visible[place]? = some l) : e.lines.toList[place]? = some l := by
  unfold visible at hl
  split at hl
  · rw [List.getElem?_take] at hl
    split at hl
    · exact hl
    · cases hl
  · exact hl

theorem visible_ne_nil {e : Entry} (hLines : 1 ≤ e.lines.size) : e.visible ≠ [] := by
  rw [← List.length_pos_iff, length_visible]
  unfold visibleCount
  split <;> omega

/-- The ordinals of a section's lines follow each other. -/
def Consecutive (e : Entry) : Prop :=
  ∃ first, e.lines.toList.map (·.ordinal) = List.range' first e.lines.size

/-- Only the first line of a section has the ordinal of the first one. -/
theorem isFirst_eq {e : Entry} (h : e.Consecutive) {place : Nat} {l : Line}
    (hl : e.lines.toList[place]? = some l) : Row.isFirst e l = decide (place = 0) := by
  obtain ⟨first, hOrdinals⟩ := h
  have hOrdinal : ∀ k m, e.lines.toList[k]? = some m → m.ordinal = first + k := by
    intro k m hm
    have hLt : k < e.lines.size := by simpa using (List.getElem?_eq_some_iff.mp hm).1
    have hMap : (e.lines.toList[k]?).map (·.ordinal) = (List.range' first e.lines.size)[k]? := by
      rw [← List.getElem?_map, hOrdinals]
    rw [hm, List.getElem?_range' hLt] at hMap
    simpa using hMap
  have hSize : 0 < e.lines.size := by
    have hLt := (List.getElem?_eq_some_iff.mp hl).1
    rw [Array.length_toList] at hLt
    omega
  have hZero : e.lines[0].ordinal = first := hOrdinal 0 e.lines[0] (by simp [hSize])
  simp [Row.isFirst, Array.getElem?_eq_getElem hSize, hZero, hOrdinal place l hl]

/-- A section with a toggle hides a line exactly while it is closed: it has two lines at least. -/
theorem length_visible_lt_iff {e : Entry} (hMany : 2 ≤ e.lines.size)
    (hToggle : e.hasToggle = true) : e.visible.length < e.lines.size ↔ e.isOpen = false := by
  rw [length_visible, visibleCount, isFolded, hToggle]
  cases hOpen : e.isOpen with
  | true => simp
  | false =>
    simp
    omega

/-- The marker that is told from ordinals is the one that belongs at the place of the line. -/
theorem marker_eq_mark {e : Entry} (h : e.Consecutive)
    (hMany : e.hasToggle = true → 2 ≤ e.lines.size) {place : Nat} {l : Line}
    (hl : e.lines.toList[place]? = some l) : Row.marker e l = Row.mark e place := by
  have hFirst := isFirst_eq h hl
  unfold Row.marker Row.mark Row.openMarker Row.closedMarker Row.noMarker
  rw [hFirst]
  by_cases hMarked : e.hasToggle = true ∧ place = 0
  · have hHidden := length_visible_lt_iff (hMany hMarked.1) hMarked.1
    cases hOpen : e.isOpen <;> simp [hMarked, hHidden, hOpen]
  · simp [hMarked]

theorem map_visible_eq {α : Type} {e : Entry} {f : Line → α} {g : Nat → Line → α}
    (h : ∀ place l, e.visible[place]? = some l → f l = g place l) :
    e.visible.map f = e.visible.mapIdx g := by
  refine List.ext_getElem? fun place => ?_
  cases hl : e.visible[place]? with
  | none => simp [hl]
  | some l => simp [hl, h place l hl]

/-- The rows of a section read as they should, and the gutter of the first one is reversed if the
section is selected. -/
theorem map_rows_eq {e : Entry} (h : e.Consecutive)
    (hMany : e.hasToggle = true → 2 ≤ e.lines.size) (options : Row.Options) :
    (e.visible.map (Row.ofLine options e)).map Row.plain =
        e.visible.mapIdx (fun place l => Row.mark e place ++ (Row.stamp options l ++ l.plain)) ∧
      (e.visible.map (Row.ofLine options e)).map Row.isReversed =
        e.visible.mapIdx fun place _ => decide (options.selected = some e.id ∧ place = 0) := by
  rw [List.map_map, List.map_map]
  constructor
  · refine map_visible_eq fun place l hl => ?_
    rw [Function.comp_apply, Row.plain_ofLine, marker_eq_mark h hMany (getElem?_lines_of_visible hl)]
  · refine map_visible_eq fun place l hl => ?_
    rw [Function.comp_apply, Row.isReversed_ofLine, isFirst_eq h (getElem?_lines_of_visible hl)]
    simp

end View.Entry

namespace View

/-- Ordinals that follow each other in the whole log do so in every section. -/
theorem Coherent.consecutive {v : View} {log : List Text} (h : v.Coherent log) :
    ∀ e ∈ v.entries, e.Consecutive := by
  intro e he
  have hLines : Section.allLines (v.entries.toList.map Entry.shown) =
      v.entries.toList.flatMap (·.lines.toList) := by
    rw [Section.allLines, List.flatMap_map]
    rfl
  have hOrdinals := h.lines.map_ordinal
  rw [← hLines] at hOrdinals
  exact Section.consecutive_of_mem hOrdinals (List.mem_map_of_mem (Array.mem_toList_iff.mpr he))

end View

namespace Console

/-- **Fold markers tell the truth.** From the top, the rows of a console are those of its sections,
one after the other. Of a section that can be folded the first row is there and is marked: as closed
exactly if a line of the section is hidden, else as open. Every other row begins with two blanks.
Behind its gutter of two columns a row has its timestamp, if it is shown, and its line. The gutter is
reversed in the first row of the selected section only, and no two sections are selected at once. -/
theorem run_marked (deferred : Bool) (actions : List Action) (options : Row.Options)
    (spare : Nat) :
    let v := (run { grouping := { deferred := deferred } } actions).view
    let rows := Row.window v 0 (v.visibleCount + spare) options
    rows.map Row.plain = v.entries.toList.flatMap (fun e =>
        e.visible.mapIdx fun place l => Row.mark e place ++ (Row.stamp options l ++ l.plain)) ∧
      rows.map Row.isReversed = v.entries.toList.flatMap (fun e =>
        e.visible.mapIdx fun place _ => decide (options.selected = some e.id ∧ place = 0)) ∧
      (∀ e ∈ v.entries, e.hasToggle = true → e.visible ≠ []) ∧
      (∀ e place, Text.width (Row.mark e place) = 2) ∧
      (v.entries.toList.map (·.id)).Nodup := by
  intro v rows
  have hCoherent := run_coherent deferred actions
  have hMany : ∀ e ∈ v.entries, e.hasToggle = true → 2 ≤ e.lines.size :=
    fun e he hToggle => (hCoherent.toggled e he hToggle).2
  have hRows : rows = v.entries.toList.flatMap fun e => e.visible.map (Row.ofLine options e) :=
    Row.window_eq_flatMap v spare options
  have hSections : ∀ e ∈ v.entries.toList, _ := fun e he =>
    View.Entry.map_rows_eq (hCoherent.consecutive e (Array.mem_toList_iff.mp he))
      (hMany e (Array.mem_toList_iff.mp he)) options
  refine ⟨?_, ?_, ?_, Row.width_mark, ?_⟩
  · rw [hRows, List.map_flatMap]
    exact List.flatMap_congr fun e he => (hSections e he).1
  · rw [hRows, List.map_flatMap]
    exact List.flatMap_congr fun e he => (hSections e he).2
  · intro e he hToggle
    exact View.Entry.visible_ne_nil (Nat.le_of_succ_le (hMany e he hToggle))
  · rw [hCoherent.ids]
    exact List.nodup_range

end Console

end BuildLog
