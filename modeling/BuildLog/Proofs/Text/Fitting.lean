import BuildLog.Text.Columns

/-!
# Shortened texts

A text that takes more columns than there are is cut, and ends in `...` where there is room for that.
The cut keeps the first character that takes a column even where this character does not fit, so not
every shortened text fits.

* `lt_width_truncate_iff`: a cut text is too wide exactly if that character alone is.
* `fit_shortened`: what a text is shortened to, and when this is still too wide.
* `wide_character_overflows`: a text that is shortened to five columns in place of four.
-/

namespace BuildLog.Text

/-- The first character of a text that takes a column. -/
def leading? (s : Text) : Option Char := s.find? (0 < columns ·)

/-- The columns left for the text itself where it is shortened. -/
def room (limit : Nat) : Nat := if limit < 4 then limit else limit - 3

/-- One character alone takes more than two columns. -/
theorem columns_le_two {c : Char} (h : c ≠ '\u17d8') : columns c ≤ 2 := by
  have hExceptional : ∀ n, exceptionalColumns? c = some n → n ≤ 2 := by
    intro n hn
    rw [exceptionalColumns?, if_neg h] at hn
    split at hn
    · cases hn
      decide
    · split at hn <;> cases hn
      decide
  unfold columns
  split
  · omega
  · split
    · omega
    · split
      · next n hn => exact hExceptional n hn
      · split
        · omega
        · split <;> omega

theorem columns_le_three (c : Char) : columns c ≤ 3 := by
  by_cases h : c = '\u17d8'
  · subst h
    decide
  · exact Nat.le_succ_of_le (columns_le_two h)

/-! ## Cutting -/

/-- Once a column is taken, only what fits is kept. -/
theorem width_cut_le {limit used : Nat} (hUsed : 0 < used) (hLe : used ≤ limit) (s : Text) :
    used + width (cut limit used s) ≤ limit := by
  induction s generalizing used with
  | nil => simpa [cut] using hLe
  | cons c s ih =>
    rw [cut]
    split
    · simpa using hLe
    · next hFits =>
      have hNext : used + columns c ≤ limit := by omega
      have hRest := ih (Nat.add_pos_left hUsed _) hNext
      rw [width_cons]
      omega

theorem cut_of_lt {limit used : Nat} (h : limit < used) (s : Text) : cut limit used s = [] := by
  cases s with
  | nil => rfl
  | cons c s => rw [cut, if_pos ⟨by omega, by omega⟩]

theorem truncate_cons (c : Char) (s : Text) (limit : Nat) :
    truncate (c :: s) limit = c :: cut limit (columns c) s := by
  rw [truncate, cut, if_neg (fun h => Nat.lt_irrefl 0 h.2), Nat.zero_add]

theorem leading?_cons_of_zero {c : Char} (h : columns c = 0) (s : Text) :
    leading? (c :: s) = leading? s := by
  simp [leading?, h]

theorem leading?_cons_of_pos {c : Char} (h : 0 < columns c) (s : Text) :
    leading? (c :: s) = some c := by
  simp [leading?, h]

/-- A text that is cut stays too wide exactly if its first visible character is. -/
theorem lt_width_truncate_iff (s : Text) (limit : Nat) :
    limit < width (truncate s limit) ↔ ∃ c, leading? s = some c ∧ limit < columns c := by
  induction s with
  | nil => simp [truncate, cut, leading?]
  | cons c s ih =>
    rw [truncate_cons, width_cons]
    rcases Nat.eq_zero_or_pos (columns c) with hZero | hPos
    · rw [hZero, Nat.zero_add, leading?_cons_of_zero hZero]
      exact ih
    · rw [leading?_cons_of_pos hPos]
      by_cases hFits : columns c ≤ limit
      · have hLe := width_cut_le hPos hFits s
        refine iff_of_false (by omega) ?_
        rintro ⟨d, hLeading, hWide⟩
        obtain rfl := Option.some.inj hLeading
        omega
      · exact iff_of_true (by omega) ⟨c, rfl, by omega⟩

/-! ## Shortening -/

theorem fit_of_width_le {s : Text} {limit : Nat} (hLimit : 1 ≤ limit) (h : width s ≤ limit) :
    fit s limit = s := by
  rw [fit, Nat.max_eq_left hLimit]
  exact if_pos h

theorem fit_of_narrow {s : Text} {limit : Nat} (hLimit : 1 ≤ limit) (h : limit < width s)
    (hNarrow : limit < 4) : fit s limit = truncate s limit := by
  simp [fit, Nat.max_eq_left hLimit, Nat.not_le.mpr h, hNarrow]

theorem fit_of_broad {s : Text} {limit : Nat} (h : limit < width s) (hBroad : 4 ≤ limit) :
    fit s limit = truncate s (limit - 3) ++ ellipsis := by
  have hLimit : 1 ≤ limit := by omega
  simp [fit, Nat.max_eq_left hLimit, Nat.not_le.mpr h, Nat.not_lt.mpr hBroad]

theorem width_ellipsis : width ellipsis = 3 := by decide

/-- A text that is shortened stays too wide exactly if its first visible character finds no room.
-/
theorem lt_width_fit_iff {s : Text} {limit : Nat} (hLimit : 1 ≤ limit) :
    limit < width (fit s limit) ↔
      limit < width s ∧ ∃ c, leading? s = some c ∧ room limit < columns c := by
  by_cases h : width s ≤ limit
  · rw [fit_of_width_le hLimit h]
    exact iff_of_false (by omega) fun hBoth => by omega
  · have hWide : limit < width s := by omega
    rw [and_iff_right hWide, room, ← lt_width_truncate_iff]
    by_cases hNarrow : limit < 4
    · rw [fit_of_narrow hLimit hWide hNarrow, if_pos hNarrow]
    · rw [fit_of_broad hWide (by omega), width_append, width_ellipsis, if_neg hNarrow]
      omega

/-- **What a text is shortened to.** A text that fits is left as it is; any other becomes a beginning
of it, followed by `...` if there are at least four columns. The result fits unless the first
character of the text that takes a column takes more than are left for the text. So only one or four
columns can be too few for it, where no character takes three; with such a character, also two or
five. -/
theorem fit_shortened (s : Text) (limit : Nat) (hLimit : 1 ≤ limit) :
    (width s ≤ limit → fit s limit = s) ∧
    (limit < width s → limit < 4 → fit s limit <+: s) ∧
    (limit < width s → 4 ≤ limit → ∃ kept, kept <+: s ∧ fit s limit = kept ++ ellipsis) ∧
    (limit < width (fit s limit) ↔
      limit < width s ∧ ∃ c, leading? s = some c ∧ room limit < columns c) ∧
    ('\u17d8' ∉ s → limit ≠ 1 → limit ≠ 4 → width (fit s limit) ≤ limit) ∧
    (limit = 3 ∨ 6 ≤ limit → width (fit s limit) ≤ limit) := by
  have hFits : (∀ c ∈ s, columns c ≤ room limit) → width (fit s limit) ≤ limit := by
    intro hColumns
    refine Nat.le_of_not_lt fun hOver => ?_
    obtain ⟨-, c, hLeading, hRoom⟩ := (lt_width_fit_iff hLimit).mp hOver
    have hLe := hColumns c (List.mem_of_find?_eq_some hLeading)
    omega
  refine ⟨fit_of_width_le hLimit, ?_, ?_, lt_width_fit_iff hLimit, ?_, ?_⟩
  · intro hWide hNarrow
    rw [fit_of_narrow hLimit hWide hNarrow]
    exact cut_isPrefix limit 0 s
  · intro hWide hBroad
    exact ⟨truncate s (limit - 3), cut_isPrefix _ 0 s, fit_of_broad hWide hBroad⟩
  · intro hNone hOne hFour
    refine hFits fun c hc => ?_
    have hTwo : columns c ≤ 2 := columns_le_two fun h => hNone (h ▸ hc)
    have hRoom : 2 ≤ room limit := by unfold room; split <;> omega
    omega
  · intro hLarge
    refine hFits fun c _ => ?_
    have hThree := columns_le_three c
    have hRoom : 3 ≤ room limit := by unfold room; split <;> omega
    omega

/-- Eight columns of wide characters in seven: two of them and the mark. -/
theorem fit_shortened_of_wide_text :
    let s : Text := ['構', '建', '成', '功']
    1 ≤ 7 ∧ fit s 7 = ['構', '建', '.', '.', '.'] ∧ width (fit s 7) ≤ 7 := by
  intro s
  obtain ⟨-, -, -, -, hFits, -⟩ := fit_shortened s 7 (by decide)
  exact ⟨by decide, by decide +kernel, hFits (by decide) (by decide) (by decide)⟩

/-- In four columns the same text becomes one wide character and the mark, and in a single column
the wide character alone; neither fits. -/
theorem wide_character_overflows :
    let s : Text := ['構', '建', '成', '功']
    (fit s 4 = ['構', '.', '.', '.'] ∧ 4 < width (fit s 4)) ∧
      fit s 1 = ['構'] ∧ 1 < width (fit s 1) := by
  decide +kernel

end BuildLog.Text
