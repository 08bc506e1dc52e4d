import BuildLog.Text.Property.DefaultIgnorable
import BuildLog.Text.Property.GraphemeExtend
import BuildLog.Text.Property.Hangul
import BuildLog.Text.Property.Wide
import BuildLog.Text

/-!
# Columns

How many columns of a terminal a text takes, and cutting a text to a number of columns. Control
characters and marks that are drawn on another character take none, East Asian wide characters
take two.

* `width_append`: the columns of a text are those of its parts.
* `cut_isPrefix`: a cut text is a beginning of the text.
-/

namespace BuildLog.Text

/-- Whether a character is a control character. -/
def isControl (c : Char) : Bool := c.toNat < 0x20 || (0x7F ≤ c.toNat && c.toNat < 0xA0)

/-- Letters and number marks that are drawn around or above the letters behind them. -/
def overlaidRanges : Ranges :=
  [(0x605, 0x605), (0x70F, 0x70F), (0x890, 0x891), (0x8E2, 0x8E2), (0xA8FA, 0xA8FA)]

/-- Consonants that are drawn on the letter behind them. -/
def precedingRanges : Ranges :=
  [(0xD4E, 0xD4E), (0x111C2, 0x111C3), (0x113D1, 0x113D1), (0x1193F, 0x1193F), (0x11941, 0x11941),
    (0x11A84, 0x11A89), (0x11D46, 0x11D46), (0x11F02, 0x11F02)]

/-- Whether a character takes no column of its own. -/
def isZeroWidth (c : Char) : Bool :=
  isDefaultIgnorable c || isGraphemeExtend c || isVowelJamo c || isTrailingJamo c ||
    overlaidRanges.contains c || precedingRanges.contains c

/-- The characters whose columns do not follow from their properties: a joiner that is visible
where it joins nothing, a filler and a vowel of two columns, and a mark of three. -/
def exceptionalColumns? (c : Char) : Option Nat :=
  if c = '\u2d7f' then some 1
  else if c = '\u115f' ∨ c = '\u17a4' then some 2
  else if c = '\u17d8' then some 3
  else none

def columns (c : Char) : Nat :=
  if isControl c then 0
  else if c.toNat < 0x7F then 1
  else
    match exceptionalColumns? c with
    | some n => n
    | none => if isZeroWidth c then 0 else if isWide c then 2 else 1

def width (s : Text) : Nat := s.foldr (fun c n => columns c + n) 0

/-- The beginning of a text that fits behind `used` columns into `limit` columns. The first
character that takes a column is kept even where it does not fit. -/
def cut (limit : Nat) : (used : Nat) → Text → Text
  | _, [] => []
  | used, c :: s =>
    if limit < used + columns c ∧ 0 < used then [] else c :: cut limit (used + columns c) s

/-- The beginning of a text that fits into some columns. -/
def truncate (s : Text) (limit : Nat) : Text := cut limit 0 s

/-- What marks a shortened line. -/
def ellipsis : Text := ['.', '.', '.']

/-- A text shortened to some columns, at least one. A shortened text ends in `...` if there is room
for it. -/
def fit (s : Text) (limit : Nat) : Text :=
  let limit := max limit 1
  if width s ≤ limit then s
  else if limit < 4 then truncate s limit
  else truncate s (limit - 3) ++ ellipsis

@[simp] theorem width_nil : width [] = 0 := rfl

@[simp] theorem width_cons (c : Char) (s : Text) : width (c :: s) = columns c + width s := rfl

theorem width_append (s t : Text) : width (s ++ t) = width s + width t := by
  induction s with
  | nil => simp
  | cons c s ih => simp [ih, Nat.add_assoc]

theorem cut_isPrefix (limit used : Nat) (s : Text) : cut limit used s <+: s := by
  induction s generalizing used with
  | nil => exact List.prefix_rfl
  | cons c s ih =>
    rw [cut]
    split
    · exact List.nil_prefix
    · exact List.cons_prefix_cons.2 ⟨rfl, ih _⟩

end BuildLog.Text
