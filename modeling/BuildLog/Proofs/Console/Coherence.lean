import BuildLog.Proofs.Grouping.Lines
import BuildLog.Proofs.Grouping.Shape
import BuildLog.Proofs.View.Growth

/-!
# What a console's view holds

The view of a console shows a log that has been grouped into sections. Whatever its reader folds, its
sections have ids of their own, their lines are those of the log, and a section that can be folded
has a kind and at least two lines: folding it hides something, and leaves something.

* `Section.Shaped.two_le_size`: a section with a continuation has a header besides.
* `Console.run_coherent`: this holds of every view that is reached.
-/

namespace BuildLog

theorem Section.Shaped.kind_isSome {s : Section} (h : s.Shaped)
    (hMany : s.attributes.multiline = true) : s.attributes.kind.isSome := by
  obtain ⟨l, hl, hRole⟩ := h.multiline.mp hMany
  obtain ⟨kind, hKind, -⟩ := h.admitted l hl hRole
  exact Option.isSome_of_eq_some hKind

/-- A section that can be folded has a header and a continuation. -/
theorem Section.Shaped.two_le_size {s : Section} (h : s.Shaped)
    (hMany : s.attributes.multiline = true) : 2 ≤ s.lines.size := by
  obtain ⟨l, hl, hRole⟩ := h.multiline.mp hMany
  have hTag : l.tag.isSome := by
    rw [Option.isSome_iff_ne_none]
    intro hNone
    simp [(h.basic l hl).mpr hNone] at hRole
  have hTagged : l ∈ s.tagged := mem_tagged.mpr ⟨hl, hTag⟩
  have hLength : s.tagged.length ≤ s.lines.size := by
    simpa [tagged] using List.length_filter_le (·.tag.isSome) s.lines.toList
  cases hList : s.tagged with
  | nil => simp [hList] at hTagged
  | cons first later =>
    obtain ⟨hFirst, -⟩ := h.header first later hList
    rw [hList] at hTagged hLength
    obtain rfl | hLater := List.mem_cons.mp hTagged
    · -- The header itself is no continuation.
      simp [hFirst] at hRole
    · have hPos := List.length_pos_of_mem hLater
      rw [List.length_cons] at hLength
      omega

namespace View

/-- A view holds the lines of a log, in sections that have ids of their own and can be folded only
if they have a kind and more than one line. -/
structure Coherent (v : View) (log : List Text) : Prop where
  ids : v.entries.toList.map (·.id) = List.range v.entries.size
  lines : Line.Shown (v.entries.toList.flatMap (·.lines.toList)) log
  toggled : ∀ e ∈ v.entries, e.hasToggle = true → e.isTyped = true ∧ 2 ≤ e.lines.size

variable {untouched : Prop}

/-- A view that mirrors sections has their lines, section by section. -/
theorem Mirrors.map_lines {v : View} {sections : Array Section}
    (h : v.Mirrors untouched sections) :
    v.entries.toList.map (·.lines) = sections.toList.map (·.lines) := by
  refine List.ext_getElem (by simpa using h.size_eq) fun i hi hi' => ?_
  have hLt : i < v.entries.size := by simpa using hi
  have hLt' : i < sections.size := by simpa using hi'
  have hEntry := h.entry i _ _ (Array.getElem?_eq_getElem hLt) (Array.getElem?_eq_getElem hLt')
  simpa using hEntry.lines

theorem Mirrors.flatMap_lines {v : View} {sections : Array Section}
    (h : v.Mirrors untouched sections) :
    v.entries.toList.flatMap (·.lines.toList) = Section.allLines sections.toList := by
  have hLines := congrArg (List.flatMap Array.toList) h.map_lines
  rwa [List.flatMap_map, List.flatMap_map] at hLines

/-- What a console needs of the sections that its view mirrors: their shape, and how their lines
read. -/
theorem Mirrors.coherent {v : View} {sections : Array Section} {log : List Text}
    (h : v.Mirrors untouched sections) (hShaped : ∀ s ∈ sections, s.Shaped)
    (hShown : Line.Shown (Section.allLines sections.toList) log) : v.Coherent log where
  ids := h.ids_eq_range
  lines := by rwa [h.flatMap_lines]
  toggled e he hToggle := by
    obtain ⟨i, hi⟩ := Array.getElem?_of_mem he
    obtain ⟨s, hs, hShows⟩ := h.exists_section hi
    have hMany : s.attributes.multiline = true := hShows.hasToggle.symm.trans hToggle
    have hSection := hShaped s (Array.mem_of_getElem? hs)
    refine ⟨?_, hShows.lines ▸ hSection.two_le_size hMany⟩
    rw [Entry.isTyped, hShows.attributes]
    exact hSection.kind_isSome hMany

end View

namespace Console

/-- The input that an action is, unless it is the reader's. -/
def Action.input? : Action → Option Grouping.Input
  | .input i => some i
  | .toggle _ | .toggleAll => none

/-- The lines that some actions bring. -/
def logOf (actions : List Action) : List Text :=
  (actions.filterMap Action.input?).flatMap Grouping.Input.given

theorem grouping_run (c : Console) (actions : List Action) :
    (c.run actions).grouping = c.grouping.run (actions.filterMap Action.input?) := by
  induction actions generalizing c with
  | nil => rfl
  | cons a actions ih => cases a <;> exact ih _

/-- The view of every console that is reached is coherent with the lines read so far. -/
theorem run_coherent (deferred : Bool) (actions : List Action) :
    let c := run { grouping := { deferred := deferred } } actions
    c.view.Coherent ((logOf actions).take c.grouping.lineCount) := by
  intro c
  have hSynced : c.Synced False := (synced_new False deferred).run actions fun _ _ _ => not_false
  have hGrouping := grouping_run { grouping := { deferred := deferred } } actions
  obtain ⟨_, hGrouped⟩ := Grouping.run_has Grouping.invariant_grouped deferred
    (actions.filterMap Action.input?)
  obtain ⟨raws, hReached⟩ := Grouping.run_has Grouping.invariant_shown deferred
    (actions.filterMap Action.input?)
  rw [← hGrouping] at hGrouped hReached
  have hLog : (logOf actions).take c.grouping.lineCount = raws := hReached.take_lineCount
  rw [hLog]
  exact hSynced.mirrors.coherent hGrouped.has.shaped hReached.has.shown

end Console

end BuildLog
