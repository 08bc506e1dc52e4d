import BuildLog.Line.Code
import BuildLog.Text.Digit

/-!
# Framing

A raw console line is framed in one of two ways: `!!|12:00:01.000 content`, with a tag and a
timestamp, or `12:00:01.000 content`, where the timestamp may be absent. A line of neither form is
content alone.

* `timestamp?_eq_some`: reading a timestamp takes exactly it and the blank behind it.
-/

namespace BuildLog

/-- A raw line, taken out of its frame. -/
structure Framed where
  tag : Option Tag
  timestamp : Text
  content : Text
  deriving DecidableEq, Repr

namespace Framed

/-- Whether a text has as many characters as there are tests, each of which passes its own. -/
def hasShape : List (Char → Bool) → Text → Bool
  | [], [] => true
  | test :: tests, c :: s => test c && hasShape tests s
  | _, _ => false

/-- The shape of a timestamp, `12:00:01.000`. -/
def clock : List (Char → Bool) :=
  let d := Text.isDecimalDigit
  let colon := (· == ':')
  [d, d, colon, d, d, colon, d, d, (· == '.'), d, d, d]

def isTimestamp (s : Text) : Bool := hasShape clock s

/-- The timestamp at the beginning of a text and what stands behind it and one space. -/
def timestamp? (s : Text) : Option (Text × Text) :=
  match s.drop 12 with
  | ' ' :: rest => if isTimestamp (s.take 12) then some (s.take 12, rest) else none
  | _ => none

theorem timestamp?_eq_some {s stamp rest : Text} (h : timestamp? s = some (stamp, rest)) :
    s = stamp ++ ' ' :: rest ∧ isTimestamp stamp = true := by
  unfold timestamp? at h
  split at h
  · next r hd =>
    split at h
    · next ht =>
      obtain ⟨rfl, rfl⟩ : s.take 12 = stamp ∧ r = rest := by simpa using h
      exact ⟨by rw [← hd, List.take_append_drop], ht⟩
    · simp at h
  · simp at h

/-- The end of a raw line: any number of line feeds and carriage returns. -/
def isTerminator (c : Char) : Bool := c == '\n' || c == '\r'

/-- A raw line without its end. -/
def body (raw : Text) : Text := Text.dropTrailing isTerminator raw

/-- Read a line with a tag: a token of two characters other than `|`, a `|`, a timestamp and one
space. -/
def ofTagged? : Text → Option Framed
  | a :: b :: '|' :: rest =>
    if a = '|' ∨ b = '|' then none
    else (timestamp? rest).map fun (stamp, content) =>
      ⟨some (Tag.ofToken [a, b]), stamp, Text.firstLine content⟩
  | _ => none

def ofUntagged (body : Text) : Framed :=
  match timestamp? body with
  | some (stamp, content) => ⟨none, stamp, Text.firstLine content⟩
  | none => ⟨none, [], Text.firstLine body⟩

/-- Take a raw line out of its frame. -/
def ofRaw (raw : Text) : Framed :=
  match ofTagged? (body raw) with
  | some framed => framed
  | none => ofUntagged (body raw)

end Framed

end BuildLog
