import BuildLog.Text.Lines

/-!
# Cutting a text at the end of a line

The lines of a text that comes in two parts are the lines of the parts, if the first part ends with
a terminator that the second one does not go on with.

* `lines_append`: where a text may be cut without a line being torn.
* `lines_flatten`: a log may come in any number of such parts.
-/

namespace BuildLog.Text

theorem consLine_append (c : Char) {rest : List Text} (h : rest ≠ []) (more : List Text) :
    consLine c (rest ++ more) = consLine c rest ++ more := by
  cases rest with
  | nil => exact absurd rfl h
  | cons line rest =>
    simp only [consLine, List.cons_append]
    split
    · rfl
    · split
      · split
        · next heq =>
          obtain ⟨rfl, rfl⟩ := List.cons.inj heq
          rfl
        · next hne =>
          split
          · next heq =>
            obtain ⟨rfl, rfl⟩ := List.cons.inj heq
            exact absurd rfl (hne _)
          · rfl
      · rfl

theorem lines_ne_nil {s : Text} (h : s ≠ []) : lines s ≠ [] := by
  intro hLines
  apply h
  rw [← flatten_lines s, hLines]
  rfl

/-- Only a text that starts with a line feed has the line of a line feed alone first. -/
theorem head?_of_lines {s : Text} {later : List Text} (h : lines s = ['\n'] :: later) :
    s.head? = some '\n' := by
  rw [← flatten_lines s, h]
  rfl

theorem lines_append {a b : Text}
    (h : a = [] ∨ a.getLast? = some '\n' ∨ a.getLast? = some '\r' ∧ b.head? ≠ some '\n') :
    lines (a ++ b) = lines a ++ lines b := by
  induction a with
  | nil => rfl
  | cons c a ih =>
    cases a with
    | nil =>
      obtain h | h | ⟨h, hb⟩ := h
      · cases h
      · obtain rfl : c = '\n' := by simpa using h
        rfl
      · obtain rfl : c = '\r' := by simpa using h
        simp only [List.cons_append, List.nil_append, lines_cons, lines_nil]
        unfold consLine
        rw [if_neg (by decide), if_pos rfl, if_neg (by decide), if_pos rfl]
        split
        · next hLines => exact absurd (head?_of_lines hLines) hb
        · rfl
    | cons d a =>
      have hTail : lines ((d :: a) ++ b) = lines (d :: a) ++ lines b := by
        apply ih
        simpa using h
      rw [List.cons_append, lines_cons, hTail, lines_cons (s := d :: a),
        consLine_append c (lines_ne_nil (List.cons_ne_nil d a))]

/-- A log may come in any number of parts, if all but the last are empty or end with a line feed. -/
theorem lines_flatten {parts : List Text}
    (h : ∀ part ∈ parts.dropLast, part = [] ∨ part.getLast? = some '\n') :
    lines parts.flatten = (parts.map lines).flatten := by
  induction parts with
  | nil => rfl
  | cons part parts ih =>
    cases parts with
    | nil => simp
    | cons next parts =>
      have hPart := h part (by simp)
      have hTail := ih fun p hp => h p (by simp [hp])
      rw [List.flatten_cons, lines_append (hPart.imp_right .inl), hTail]
      rfl

end BuildLog.Text
