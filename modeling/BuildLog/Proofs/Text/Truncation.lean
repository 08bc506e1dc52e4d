import BuildLog.Proofs.Text.Fitting

/-!
# Where a text is cut

A cut text is the longest beginning that fits, marks that take no column included. Only where the
first character that takes a column is too wide by itself, the text ends right behind it, and not
even a mark on that character is kept.

* `isLongest_cut`: once a column is taken, nothing longer would fit.
* `truncate_latest`: where every text is cut.
-/

namespace BuildLog.Text

/-- The longest beginning of a text that takes at most some columns. -/
structure IsLongest (s : Text) (limit : Nat) (t : Text) : Prop where
  isPrefix : t <+: s
  fits : width t ≤ limit
  longest : ∀ u, u <+: s → width u ≤ limit → u <+: t

namespace IsLongest

variable {s t : Text} {limit : Nat}

theorem nil_of_lt {c : Char} (h : limit < columns c) (s : Text) : IsLongest (c :: s) limit [] where
  isPrefix := List.nil_prefix
  fits := Nat.zero_le limit
  longest u hu hFits := by
    cases u with
    | nil => exact List.prefix_rfl
    | cons d u =>
      obtain ⟨rfl, -⟩ := List.cons_prefix_cons.1 hu
      rw [width_cons] at hFits
      omega

theorem cons (h : IsLongest s limit t) (c : Char) :
    IsLongest (c :: s) (columns c + limit) (c :: t) where
  isPrefix := List.cons_prefix_cons.2 ⟨rfl, h.isPrefix⟩
  fits := Nat.add_le_add_left h.fits _
  longest u hu hFits := by
    cases u with
    | nil => exact List.nil_prefix
    | cons d u =>
      obtain ⟨rfl, hRest⟩ := List.cons_prefix_cons.1 hu
      rw [width_cons] at hFits
      exact List.cons_prefix_cons.2 ⟨rfl, h.longest u hRest (by omega)⟩

theorem append_of_zero {marks : Text} (hMarks : ∀ m ∈ marks, columns m = 0)
    (h : IsLongest s limit t) : IsLongest (marks ++ s) limit (marks ++ t) := by
  induction marks with
  | nil => exact h
  | cons m marks ih =>
    have hRest := ih fun m hm => hMarks m (List.mem_cons_of_mem _ hm)
    simpa [hMarks m List.mem_cons_self] using hRest.cons m

end IsLongest

/-- With a column taken, cutting keeps as much as fits into those left. -/
theorem isLongest_cut {limit used : Nat} (hUsed : 0 < used) (hLe : used ≤ limit) (s : Text) :
    IsLongest s (limit - used) (cut limit used s) := by
  induction s generalizing used with
  | nil => exact ⟨List.prefix_rfl, Nat.zero_le _, fun _ hu _ => hu⟩
  | cons c s ih =>
    rw [cut]
    by_cases h : limit < used + columns c
    · rw [if_pos ⟨h, hUsed⟩]
      exact .nil_of_lt (by omega) s
    · have hLeft : limit - used = columns c + (limit - (used + columns c)) := by omega
      rw [if_neg (fun hBoth => h hBoth.1), hLeft]
      exact (ih (by omega) (by omega)).cons c

/-- Marks at the beginning are kept, whatever the limit is. -/
theorem truncate_append_of_zero {marks : Text} (hMarks : ∀ m ∈ marks, columns m = 0) (s : Text)
    (limit : Nat) : truncate (marks ++ s) limit = marks ++ truncate s limit := by
  induction marks with
  | nil => rfl
  | cons m marks ih =>
    have hRest := ih fun m hm => hMarks m (List.mem_cons_of_mem _ hm)
    rw [List.cons_append, truncate_cons, hMarks m List.mem_cons_self, List.cons_append, ← hRest]
    rfl

theorem truncate_of_zero {s : Text} (h : ∀ c ∈ s, columns c = 0) (limit : Nat) :
    truncate s limit = s := by
  have hEmpty : truncate [] limit = [] := rfl
  simpa [hEmpty] using truncate_append_of_zero h [] limit

theorem truncate_cons_of_lt {c : Char} {limit : Nat} (h : limit < columns c) (s : Text) :
    truncate (c :: s) limit = [c] := by
  rw [truncate_cons, cut_of_lt h]

theorem isLongest_truncate_cons {c : Char} {limit : Nat} (hPos : 0 < columns c)
    (h : columns c ≤ limit) (s : Text) : IsLongest (c :: s) limit (truncate (c :: s) limit) := by
  have hRest := (isLongest_cut hPos h s).cons c
  rwa [Nat.add_sub_cancel' h, ← truncate_cons] at hRest

/-- **Where a text is cut.** The result is a beginning of the text, and all of it where no character
takes a column. If the first character that takes one fits, the result is the longest beginning that
fits; otherwise it ends with that character. -/
theorem truncate_latest (s : Text) (limit : Nat) :
    truncate s limit <+: s ∧
    ((∀ c ∈ s, columns c = 0) → truncate s limit = s) ∧
    ∀ marks c rest, s = marks ++ c :: rest → (∀ m ∈ marks, columns m = 0) → 0 < columns c →
      (columns c ≤ limit → IsLongest s limit (truncate s limit)) ∧
      (limit < columns c → truncate s limit = marks ++ [c]) := by
  refine ⟨cut_isPrefix limit 0 s, fun h => truncate_of_zero h limit, ?_⟩
  rintro marks c rest rfl hMarks hPos
  rw [truncate_append_of_zero hMarks]
  constructor
  · intro hFits
    exact (isLongest_truncate_cons hPos hFits rest).append_of_zero hMarks
  · intro hWide
    rw [truncate_cons_of_lt hWide]

/-- Two wide characters between marks. In three columns the first one is kept with its mark, in a
single column without it. -/
theorem truncate_latest_of_marked_text :
    let s : Text := ['\u0300', '構', '\u0301', '建', '\u0302']
    (truncate s 3 = ['\u0300', '構', '\u0301'] ∧ IsLongest s 3 (truncate s 3)) ∧
      truncate s 1 = ['\u0300', '構'] := by
  intro s
  have hMark : columns '\u0300' = 0 := by decide +kernel
  have hMarks : ∀ m ∈ ['\u0300'], columns m = 0 := List.forall_mem_singleton.2 hMark
  have hPos : 0 < columns '構' := by decide +kernel
  obtain ⟨-, -, hCut⟩ := truncate_latest s 3
  obtain ⟨-, -, hNarrow⟩ := truncate_latest s 1
  refine ⟨⟨by decide +kernel, ?_⟩, ?_⟩
  · exact (hCut ['\u0300'] '構' _ rfl hMarks hPos).1 (by decide +kernel)
  · exact (hNarrow ['\u0300'] '構' _ rfl hMarks hPos).2 (by decide +kernel)

end BuildLog.Text
