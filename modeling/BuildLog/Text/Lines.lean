import BuildLog.Text

/-!
# Lines of a log

Fetched log text is cut into lines that keep their own terminator, `\r\n`, `\n` or a lone `\r`, so
that nothing is lost: `flatten_lines`. A last piece without a terminator is a line too; the empty
piece behind a final terminator is none.
-/

namespace BuildLog.Text

/-- Put a character in front of the lines of the text that follows it. -/
def consLine (c : Char) (rest : List Text) : List Text :=
  if c = '\n' then ['\n'] :: rest
  else if c = '\r' then
    match rest with
    | ['\n'] :: later => ['\r', '\n'] :: later
    | _ => ['\r'] :: rest
  else
    match rest with
    | [] => [[c]]
    | line :: later => (c :: line) :: later

/-- The lines of a text, each with its terminator. -/
def lines (s : Text) : List Text := s.foldr consLine []

@[simp] theorem lines_nil : lines [] = [] := rfl

@[simp] theorem lines_cons (c : Char) (s : Text) : lines (c :: s) = consLine c (lines s) := rfl

theorem flatten_consLine (c : Char) (rest : List Text) :
    (consLine c rest).flatten = c :: rest.flatten := by
  unfold consLine
  split
  · next h => simp [h]
  · split
    · next h => split <;> simp [h]
    · split <;> simp

/-- The lines of a text make up the text. -/
theorem flatten_lines (s : Text) : (lines s).flatten = s := by
  induction s with
  | nil => rfl
  | cons c s ih => rw [lines_cons, flatten_consLine, ih]

end BuildLog.Text
