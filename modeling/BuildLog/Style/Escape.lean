import BuildLog.Style.Graphics
import BuildLog.Style.Run

/-!
# Escape sequences

Console output styles its text with escape sequences. Decoding reads a text character by
character: "select graphic rendition" sequences change the graphics state, every other sequence is
dropped, and each visible character becomes a glyph in the style then in force.

* `glyphs_cons`: decoding is one step for each character.
* `plain_decode`: the runs hold exactly the visible characters.
-/

namespace BuildLog.Escape

/-- The character that opens an escape sequence. -/
def esc : Char := '\x1b'

/-- The character that may close a string sequence. -/
def bell : Char := '\x07'

/-- Whether a character ends a control sequence. -/
def isFinal (c : Char) : Bool := '\x40' ≤ c && c ≤ '\x7e'

/-- Where a reader stands in the text. -/
inductive Mode where
  /-- Among visible characters. -/
  | plain
  /-- Behind the character that opens a sequence. -/
  | opened
  /-- In a control sequence, with its parameters so far in reverse. -/
  | control (params : Text)
  /-- In a string sequence. -/
  | string
  /-- In a string sequence, behind an opening character that may begin its end. -/
  | stringOpened
  deriving DecidableEq, Repr

/-- The state of a reader. -/
structure Decoder where
  mode : Mode := .plain
  graphics : Graphics := {}
  deriving DecidableEq, Repr

namespace Decoder

/-- The mode in a string sequence behind a character. -/
def stringMode (c : Char) : Mode :=
  if c = bell then .plain else if c = esc then .stringOpened else .string

/-- The state behind one more character. -/
def step (d : Decoder) (c : Char) : Decoder :=
  match d.mode with
  | .plain => if c = esc then { d with mode := .opened } else d
  | .opened =>
    if c = '[' then { d with mode := .control [] }
    else if c = ']' then { d with mode := .string }
    else { d with mode := .plain }
  | .control params =>
    if isFinal c then
      if c = 'm' then ⟨.plain, d.graphics.apply params.reverse⟩ else { d with mode := .plain }
    else { d with mode := .control (c :: params) }
  | .string => { d with mode := stringMode c }
  | .stringOpened => if c = '\\' then { d with mode := .plain } else { d with mode := stringMode c }

/-- The glyph that a character makes, if it is visible. -/
def glyph? (d : Decoder) (c : Char) : Option Glyph :=
  if d.mode = .plain ∧ c ≠ esc then some ⟨c, d.graphics.style⟩ else none

/-- The glyphs of a text read from a state. -/
def glyphs : Decoder → Text → List Glyph
  | _, [] => []
  | d, c :: s =>
    match d.glyph? c with
    | some g => g :: glyphs (d.step c) s
    | none => glyphs (d.step c) s

/-- The state behind a text. -/
def run (d : Decoder) (s : Text) : Decoder := s.foldl step d

theorem glyphs_nil (d : Decoder) : d.glyphs [] = [] := rfl

theorem glyphs_cons (d : Decoder) (c : Char) (s : Text) :
    d.glyphs (c :: s) = (d.glyph? c).toList ++ (d.step c).glyphs s := by
  rw [glyphs]
  cases d.glyph? c <;> rfl

/-- A text behind another is read from the state that the first one leaves. -/
theorem glyphs_append (d : Decoder) (s t : Text) :
    d.glyphs (s ++ t) = d.glyphs s ++ (d.run s).glyphs t := by
  induction s generalizing d with
  | nil => rfl
  | cons c s ih => simp [glyphs_cons, run, ih]

end Decoder

/-- The glyphs of a text. -/
def glyphs (s : Text) : List Glyph := Decoder.glyphs {} s

/-- The runs of a text. -/
def decode (s : Text) : List Run := Run.join (glyphs s)

/-- The visible characters of a text. -/
def plain (s : Text) : Text := (decode s).flatMap Run.text

theorem plain_decode (s : Text) : plain s = (glyphs s).map Glyph.char := by
  have h := congrArg (List.map Glyph.char) (Run.flatMap_glyphs_join (glyphs s))
  rw [← h, List.map_flatMap, plain, decode]
  congr 1
  funext r
  simp [Run.glyphs, Function.comp_def]

end BuildLog.Escape
