import BuildLog.Proofs.Grouping.Run

/-!
# A log read from its beginning

An invariant of a grouping speaks of its sections and of the lines read so far. Since there is only
one way to read a line, the lines alone determine the sections: they are those of a reading that
takes the lines one by one from the beginning of the log. So an invariant may look back at what the
sections were when only some of the lines had been read.

* `Grouping.invariant_read`: the sections of a grouping are those of the lines it has read.
* `Grouping.Closes`, `Grouping.Closes.unique`: the line that closed a section.
-/

namespace BuildLog.Grouping

theorem read_concat (g : Grouping) (raws : List Text) (raw : Text) :
    g.read (raws ++ [raw]) = (g.read raws).next raw := by
  simp [read]

/-- A reading of some lines from the beginning ends with given sections. -/
structure ReadAs (closed : List Section) (s : Section) (raws : List Text) : Prop where
  endsWith : (read {} raws).tree.EndsWith closed s
  cursor : (read {} raws).cursor = closed.length
  lineCount : (read {} raws).lineCount = raws.length

/-- The next line leaves the sections that any way to read it leaves. -/
theorem ReadAs.sections_concat {closed : List Section} {s s' : Section} {raws : List Text}
    {raw : Text} {begun : Option Section} (h : ReadAs closed s raws)
    (hAdvance : s.Advance (closed.length + 1) (raws.length + 1) (.ofRaw raw) s' begun) :
    (read {} (raws ++ [raw])).tree.sections.toList = closed ++ s' :: begun.toList ∧
      (read {} (raws ++ [raw])).cursor = closed.length + begun.toList.length := by
  obtain ⟨t', begun', hRead, hSections, hCursor⟩ :=
    consume_advance h.endsWith (raws.length + 1) (.ofRaw raw)
  obtain ⟨rfl, rfl⟩ := hAdvance.unique hRead
  rw [read_concat, Reading.next, h.cursor, h.lineCount]
  exact ⟨hSections, hCursor⟩

theorem ReadAs.lineCount_concat {closed : List Section} {s : Section} {raws : List Text}
    (h : ReadAs closed s raws) (raw : Text) :
    (read {} (raws ++ [raw])).lineCount = (raws ++ [raw]).length := by
  simp [read_concat, Reading.next, h.lineCount]

theorem invariant_read : Invariant ReadAs where
  start := ⟨rfl, rfl, rfl⟩
  stay h hAdvance := by
    obtain ⟨hSections, hCursor⟩ := h.sections_concat hAdvance
    exact ⟨hSections, hCursor, h.lineCount_concat _⟩
  leave h hAdvance := by
    obtain ⟨hSections, hCursor⟩ := h.sections_concat hAdvance
    exact ⟨hSections.trans (by simp), hCursor.trans (by simp), h.lineCount_concat _⟩

/-- Reading any lines afresh ends with sections in front and one that receives lines. -/
theorem exists_readAs (raws : List Text) : ∃ closed s, ReadAs closed s raws := by
  have hNew : ({} : Grouping).Has ReadAs [] := ⟨rfl, .inl ⟨rfl, rfl, rfl, rfl⟩⟩
  obtain ⟨closed, s, -, -, -, h⟩ := read_has invariant_read hNew raws
  exact ⟨closed, s, h⟩

theorem size_read_concat (raws : List Text) (raw : Text) :
    (read {} raws).tree.sections.size ≤ (read {} (raws ++ [raw])).tree.sections.size := by
  obtain ⟨closed, s, h⟩ := exists_readAs raws
  obtain ⟨s', begun, hAdvance, -, -⟩ :=
    consume_advance h.endsWith (raws.length + 1) (.ofRaw raw)
  have hSize := congrArg List.length (h.sections_concat hAdvance).1
  simp only [Array.length_toList, List.length_append, List.length_cons] at hSize
  rw [h.endsWith.size_eq, hSize]
  omega

/-- Sections are never given up, however many more lines are read. -/
theorem size_read_take_le (raws : List Text) {j k : Nat} (h : j ≤ k) :
    (read {} (raws.take j)).tree.sections.size ≤ (read {} (raws.take k)).tree.sections.size := by
  induction h with
  | refl => exact Nat.le_refl _
  | @step k _ ih =>
    refine Nat.le_trans ih ?_
    by_cases hk : k < raws.length
    · rw [List.take_add_one, List.getElem?_eq_getElem hk]
      exact size_read_concat _ _
    · have hSame : raws.take k = raws.take (k + 1) := by
        rw [List.take_of_length_le (by omega), List.take_of_length_le (by omega)]
      exact Nat.le_of_eq (by rw [hSame])

/-- The line at `k`, from zero, closes the section at `i`: it is the last section before the line is
read, and one more is begun behind it when the line is read. -/
def Closes (raws : List Text) (k i : Nat) : Prop :=
  (read {} (raws.take k)).tree.sections.size = i + 1 ∧
    (read {} (raws.take (k + 1))).tree.sections.size = i + 2

/-- A section is closed only once. -/
theorem Closes.unique {raws : List Text} {j k i : Nat} (hj : Closes raws j i)
    (hk : Closes raws k i) : j = k := by
  have hNotLater : ∀ {j k : Nat}, Closes raws j i → Closes raws k i → k ≤ j := by
    intro j k hj hk
    by_contra hLater
    have hLe := size_read_take_le raws (show j + 1 ≤ k by omega)
    rw [hj.2, hk.1] at hLe
    omega
  exact Nat.le_antisymm (hNotLater hk hj) (hNotLater hj hk)

/-- Whether a line closes a section does not depend on the lines behind it. -/
theorem Closes.concat {raws : List Text} {k i : Nat} (h : Closes raws k i) (hk : k < raws.length)
    (raw : Text) : Closes (raws ++ [raw]) k i := by
  unfold Closes at h ⊢
  rwa [List.take_append_of_le_length (by omega), List.take_append_of_le_length (by omega)]

/-- A line behind which a further section stands closed the one that was last. -/
theorem ReadAs.closes_concat {closed : List Section} {s s' next : Section} {raws : List Text}
    {raw : Text} (h : ReadAs closed s raws)
    (hAdvance : s.Advance (closed.length + 1) (raws.length + 1) (.ofRaw raw) s' (some next)) :
    Closes (raws ++ [raw]) raws.length closed.length := by
  have hNext := congrArg List.length (h.sections_concat hAdvance).1
  refine ⟨?_, ?_⟩
  · rw [List.take_left]
    exact h.endsWith.size_eq
  · rw [List.take_of_length_le (by simp)]
    simpa using hNext

end BuildLog.Grouping
