import BuildLog.Text.Blank
import BuildLog.Text.Number
import Mathlib.Data.List.TakeWhile

/-!
# Values that are told as texts

What is left of a text without the blanks around it, and which texts write a number.

* `trim_eq_iff`: a text is trimmed to what stands between its outer blanks.
* `Number.read_eq_ok_iff`: a number is read exactly from the texts that write it and are in range.
-/

namespace BuildLog.Text

/-! ## Blanks around a value -/

/-- A text is another one with blanks around it; neither end of that one is blank. -/
inductive Trims : Text → Text → Prop
  | intro {before t after : Text} (hBefore : ∀ c ∈ before, isBlank c = true)
      (hAfter : ∀ c ∈ after, isBlank c = true) (hHead : ∀ c ∈ t.head?, isBlank c = false)
      (hLast : ∀ c ∈ t.getLast?, isBlank c = false) : Trims (before ++ (t ++ after)) t

theorem trims_trim (s : Text) : Trims s (trim s) := by
  have hInner : s.dropWhile isBlank =
      trim s ++ ((s.dropWhile isBlank).reverse.takeWhile isBlank).reverse := by
    rw [trim, strip, dropTrailing, ← List.reverse_append, List.takeWhile_append_dropWhile,
      List.reverse_reverse]
  have hWhole : s.takeWhile isBlank ++
      (trim s ++ ((s.dropWhile isBlank).reverse.takeWhile isBlank).reverse) = s := by
    rw [← hInner, List.takeWhile_append_dropWhile]
  have hTrims : Trims (s.takeWhile isBlank ++
      (trim s ++ ((s.dropWhile isBlank).reverse.takeWhile isBlank).reverse)) (trim s) := by
    refine .intro ?_ ?_ ?_ ?_
    · exact fun c hc => List.mem_takeWhile_imp hc
    · exact fun c hc => List.mem_takeWhile_imp (List.mem_reverse.1 hc)
    · intro c hc
      have hNot := List.head?_dropWhile_not isBlank s
      rw [hInner, List.head?_append, Option.mem_def.1 hc] at hNot
      simpa using hNot
    · intro c hc
      rw [trim, strip, dropTrailing, List.getLast?_reverse] at hc
      have hNot := List.head?_dropWhile_not isBlank (s.dropWhile isBlank).reverse
      rw [Option.mem_def.1 hc] at hNot
      simpa using hNot
  rwa [hWhole] at hTrims

theorem dropWhile_append_of_head? {p : Char → Bool} {before t : Text}
    (hBefore : ∀ c ∈ before, p c = true) (hHead : ∀ c ∈ t.head?, p c = false) :
    (before ++ t).dropWhile p = t := by
  rw [List.dropWhile_append_of_pos hBefore]
  cases t with
  | nil => rfl
  | cons c t => rw [List.dropWhile_cons_of_neg (by simp [hHead c rfl])]

theorem Trims.trim_eq {s t : Text} (h : Trims s t) : trim s = t := by
  cases h with
  | @intro before _ after hBefore hAfter hHead hLast =>
    have hEnd : dropTrailing isBlank (t ++ after) = t := by
      rw [dropTrailing, List.reverse_append, dropWhile_append_of_head?, List.reverse_reverse]
      · exact fun c hc => hAfter c (List.mem_reverse.1 hc)
      · exact fun c hc => hLast c (by rwa [List.head?_reverse] at hc)
    rw [trim, strip, List.dropWhile_append_of_pos hBefore]
    cases t with
    | nil =>
      have hGone : after.dropWhile isBlank = [] := List.dropWhile_eq_nil_iff.2 hAfter
      rw [List.nil_append, hGone]
      rfl
    | cons c t =>
      rw [List.cons_append, List.dropWhile_cons_of_neg (by simp [hHead c rfl]),
        ← List.cons_append, hEnd]

/-- Trimming takes blanks off both ends, and no more. -/
theorem trim_eq_iff {s t : Text} : trim s = t ↔ Trims s t :=
  ⟨fun h => h ▸ trims_trim s, Trims.trim_eq⟩

/-! ## Numbers -/

namespace Number

/-- The digits `0` to `9`, at least one. -/
def IsDigits (s : Text) : Prop := s ≠ [] ∧ ∀ c ∈ s, c.isDigit = true

/-- The number that digits make behind `start`. -/
def valueFrom (start : Nat) (s : Text) : Nat :=
  s.foldl (fun n c => 10 * n + (c.toNat - '0'.toNat)) start

/-- How a number is written: one plus sign at most, then digits. -/
inductive Writes : Nat → Text → Prop
  | plain {s : Text} (h : IsDigits s) : Writes (valueFrom 0 s) s
  | plus {s : Text} (h : IsDigits s) : Writes (valueFrom 0 s) ('+' :: s)

theorem IsDigits.head?_ne {s : Text} (h : IsDigits s) : s.head? ≠ some '+' := by
  intro hHead
  exact absurd (h.2 '+' (List.mem_of_mem_head? hHead)) (by decide)

theorem Writes.unique {m n : Nat} {s : Text} (hm : Writes m s) (hn : Writes n s) : m = n := by
  cases hm with
  | plain hm =>
    cases hn with
    | plain => rfl
    | plus => exact absurd rfl hm.head?_ne
  | plus =>
    cases hn with
    | plain hn => exact absurd rfl hn.head?_ne
    | plus => rfl

theorem le_valueFrom (start : Nat) (s : Text) : start ≤ valueFrom start s := by
  induction s generalizing start with
  | nil => exact Nat.le_refl _
  | cons c s ih =>
    have hRest := ih (10 * start + (c.toNat - '0'.toNat))
    simp only [valueFrom, List.foldl_cons] at hRest ⊢
    omega

theorem push_eq_ok_iff {largest start n : Nat} {c : Char} :
    push largest start c = .ok n ↔
      c.isDigit = true ∧ n = 10 * start + (c.toNat - '0'.toNat) ∧ n ≤ largest := by
  rw [push, digit?]
  by_cases hDigit : c.isDigit = true
  · by_cases hLarge : largest < 10 * start + (c.toNat - '0'.toNat)
    · simp only [hDigit, if_true, if_pos hLarge, reduceCtorEq, true_and, false_iff]
      omega
    · simp only [hDigit, if_true, if_neg hLarge, Except.ok.injEq, true_and]
      omega
  · simp [hDigit]

/-- Digits are read as their number exactly if it is within the bound. -/
theorem readDigits_eq_ok_iff {largest start n : Nat} (hStart : start ≤ largest) {s : Text} :
    readDigits largest start s = .ok n ↔
      (∀ c ∈ s, c.isDigit = true) ∧ n = valueFrom start s ∧ n ≤ largest := by
  induction s generalizing start with
  | nil =>
    simp only [readDigits, valueFrom, List.foldl_nil, Except.ok.injEq, List.not_mem_nil,
      false_implies, implies_true, true_and]
    omega
  | cons c s ih =>
    rw [readDigits]
    cases hPush : push largest start c with
    | ok next =>
      obtain ⟨hDigit, rfl, hNext⟩ := push_eq_ok_iff.1 hPush
      rw [ih hNext]
      simp [hDigit, valueFrom]
    | error fault =>
      refine iff_of_false (by simp) ?_
      rintro ⟨hDigits, rfl, hLarge⟩
      -- The digits behind `c` cannot make the number smaller.
      have hLe := le_valueFrom (10 * start + (c.toNat - '0'.toNat)) s
      have hOk := push_eq_ok_iff.2 ⟨hDigits c List.mem_cons_self, rfl, hLe.trans hLarge⟩
      rw [hOk] at hPush
      cases hPush

/-- A number is read from the texts that write it, and from no others. -/
theorem read_eq_ok_iff {largest n : Nat} {s : Text} :
    read largest s = .ok n ↔ Writes n s ∧ n ≤ largest := by
  unfold read
  split
  case h_1 =>
    refine iff_of_false (by simp) ?_
    rintro ⟨hWrites, -⟩
    cases hWrites with
    | plain h => exact h.1 rfl
  case h_2 =>
    refine iff_of_false (by simp) ?_
    rintro ⟨hWrites, -⟩
    cases hWrites with
    | plain h => exact h.head?_ne rfl
    | plus h => exact h.1 rfl
  case h_3 s hNe =>
    rw [readDigits_eq_ok_iff (Nat.zero_le _)]
    constructor
    · rintro ⟨hDigits, rfl, hLe⟩
      exact ⟨.plus ⟨hNe, hDigits⟩, hLe⟩
    · rintro ⟨hWrites, hLe⟩
      cases hWrites with
      | plain h => exact absurd rfl h.head?_ne
      | plus h => exact ⟨h.2, rfl, hLe⟩
  case h_4 hNe _ hSign =>
    rw [readDigits_eq_ok_iff (Nat.zero_le _)]
    constructor
    · rintro ⟨hDigits, rfl, hLe⟩
      exact ⟨.plain ⟨hNe, hDigits⟩, hLe⟩
    · rintro ⟨hWrites, hLe⟩
      cases hWrites with
      | plain h => exact ⟨h.2, rfl, hLe⟩
      | plus h => exact absurd rfl (hSign _)

end Number

end BuildLog.Text
