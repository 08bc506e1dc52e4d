import BuildLog.Text

/-!
# Blank characters

The characters of the Unicode property White_Space, and trimming by them. The property is wider
than the blanks of `Char.isWhitespace`; `isBlank_of_isWhitespace` says that it contains them.
-/

namespace BuildLog.Text

/-- Whether a character has the Unicode property White_Space. -/
def isBlank (c : Char) : Bool :=
  let n := c.toNat
  (0x09 ≤ n && n ≤ 0x0D) || n == 0x20 || n == 0x85 || n == 0xA0 || n == 0x1680 ||
    (0x2000 ≤ n && n ≤ 0x200A) || n == 0x2028 || n == 0x2029 || n == 0x202F || n == 0x205F ||
    n == 0x3000

theorem isBlank_of_isWhitespace {c : Char} (h : c.isWhitespace = true) : isBlank c = true := by
  simp only [Char.isWhitespace, Bool.or_eq_true, decide_eq_true_eq] at h
  rcases h with ((h | h) | h) | h <;> subst h <;> decide

/-- A text without its blanks at both ends. -/
def trim (s : Text) : Text := strip isBlank s

def isAllBlank (s : Text) : Bool := s.all isBlank

end BuildLog.Text
