/-!
# Text

A text is the list of its characters. Every function on a text follows that list, so its laws are
inductions on it. This file holds the list operations that the other modules share: dropping at the
end, cutting at separators, and removing a known beginning.

* `splitWhere_ne_nil`: cutting a text leaves at least one piece.
* `after?_eq_some_iff`: removing a beginning succeeds exactly on texts that start with it.
-/

namespace BuildLog

/-- A text is the list of its characters. -/
abbrev Text := List Char

namespace Text

/-- Drop the longest ending whose characters all satisfy `p`. -/
def dropTrailing (p : Char → Bool) (s : Text) : Text :=
  (s.reverse.dropWhile p).reverse

/-- Drop the longest beginning and the longest ending whose characters all satisfy `p`. -/
def strip (p : Char → Bool) (s : Text) : Text :=
  dropTrailing p (s.dropWhile p)

/-- The pieces of a text between the characters that satisfy `p`; a text without such a character
is a single piece. -/
def splitWhere (p : Char → Bool) (s : Text) : List Text :=
  s.foldr (fun c pieces =>
    if p c then [] :: pieces
    else match pieces with
      | [] => [[c]]
      | piece :: rest => (c :: piece) :: rest) [[]]

theorem splitWhere_nil (p : Char → Bool) : splitWhere p [] = [[]] := rfl

theorem splitWhere_cons_of_pos {p : Char → Bool} {c : Char} (s : Text) (h : p c = true) :
    splitWhere p (c :: s) = [] :: splitWhere p s := by
  simp [splitWhere, h]

theorem splitWhere_ne_nil (p : Char → Bool) (s : Text) : splitWhere p s ≠ [] := by
  cases s with
  | nil => simp [splitWhere]
  | cons c s =>
    simp only [splitWhere, List.foldr_cons]
    split
    · simp
    · split <;> simp

/-- The characters before the first line feed. -/
def firstLine (s : Text) : Text := s.takeWhile (· != '\n')

/-- What follows `start` in a text that begins with it. -/
def after? : (start : Text) → Text → Option Text
  | [], s => some s
  | _ :: _, [] => none
  | a :: start, c :: s => if a = c then after? start s else none

theorem after?_eq_some_iff {start s rest : Text} :
    after? start s = some rest ↔ s = start ++ rest := by
  induction start generalizing s with
  | nil => simp [after?, eq_comm]
  | cons a start ih =>
    cases s with
    | nil => simp [after?]
    | cons c s =>
      by_cases h : a = c
      · simp [after?, h, ih]
      · have h' : c ≠ a := fun e => h e.symm
        simp [after?, h, h']

end Text

end BuildLog
