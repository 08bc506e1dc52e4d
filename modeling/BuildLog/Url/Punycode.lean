import BuildLog.Text

/-!
# Punycode

Punycode writes a label with characters beyond ASCII as ASCII text: first its ASCII characters and a
hyphen, then a number for each further character, which tells the character and its place. The
characters come in ascending order, so a number tells how far to move on from the one before: a
round through all places of the label goes on by one character.

Numbers have digits of varying weight and end with a digit below a threshold, which follows the size
of the numbers so far.

* `decode?_nil`: no text writes the empty label.
-/

namespace BuildLog.Punycode

def digit? (c : Char) : Option Nat :=
  if 'a' ≤ c ∧ c ≤ 'z' then some (c.toNat - 'a'.toNat)
  else if c.isDigit then some (c.toNat - '0'.toNat + 26)
  else none

/-- The threshold of a digit: a number ends with the first digit below it. -/
def threshold (bias position : Nat) : Nat := max 1 (min 26 (position - bias))

theorem threshold_pos (bias position : Nat) : 0 < threshold bias position := by
  simp only [threshold]; omega

theorem threshold_lt (bias position : Nat) : threshold bias position < 36 := by
  simp only [threshold]; omega

/-- The bias behind a number, from the number scaled to the length of the label. -/
def settleBias (position scaled : Nat) : Nat :=
  if 455 < scaled then settleBias (position + 36) (scaled / 35)
  else position + 36 * scaled / (scaled + 38)
termination_by scaled
decreasing_by omega

/-- The bias behind a number that has put a label to a length. -/
def nextBias (isFirst : Bool) (number length : Nat) : Nat :=
  let scaled := if isFirst then number / 700 else number / 2
  settleBias 0 (scaled + scaled / length)

/-- How far a label has been read. -/
structure State where
  /-- The label so far. -/
  label : Text
  /-- The character put in last. -/
  code : Nat := 0x80
  /-- The place behind the character put in last. -/
  place : Nat := 0
  /-- The number being read, as far as it goes. -/
  number : Nat := 0
  /-- The weight of the next digit. -/
  weight : Nat := 1
  /-- The position of the next digit in its number; the first one is at 36. -/
  position : Nat := 36
  bias : Nat := 72
  deriving DecidableEq, Repr

namespace State

/-- Put in the character that a complete number tells. -/
def insert? (s : State) (number : Nat) : Option State :=
  let length := s.label.length + 1
  let code := s.code + (s.place + number) / length
  let place := (s.place + number) % length
  if code.isValidChar then
    some {
      label := s.label.insertIdx place (Char.ofNat code)
      code := code
      place := place + 1
      bias := nextBias (s.place == 0) number length }
  else none

def step (s : State) (c : Char) : Option State :=
  match digit? c with
  | none => none
  | some d =>
    let number := s.number + d * s.weight
    let limit := threshold s.bias s.position
    if d < limit then s.insert? number
    else some { s with
      number := number, weight := s.weight * (36 - limit), position := s.position + 36 }

/-- Read digits, up to the end of a number. -/
def run (s : State) : Text → Option Text
  | [] => if s.position = 36 then some s.label else none
  | c :: rest =>
    match s.step c with
    | none => none
    | some s => s.run rest

end State

/-- The part before the last hyphen and the part behind it, or behind nothing if no hyphen follows
another character. -/
def parts (s : Text) : Text × Text :=
  let digits := (s.reverse.takeWhile (· != '-')).reverse
  let basic := s.take (s.length - digits.length - 1)
  if basic.isEmpty then ([], s) else (basic, digits)

def decode? (s : Text) : Option Text :=
  let (basic, digits) := parts s
  if s.isEmpty || basic.any fun c => 0x80 ≤ c.toNat then none
  else State.run { label := basic } digits

theorem decode?_nil : decode? [] = none := rfl

end BuildLog.Punycode
