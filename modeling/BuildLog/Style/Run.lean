import BuildLog.Style
import BuildLog.Text

/-!
# Runs

A styled text is a row of glyphs, characters with their styles. For drawing, neighbouring glyphs of
one style are joined to a run.

* `flatMap_glyphs_join`: joining keeps the glyphs.
* `text_ne_nil_of_mem_join`: no run is empty.
-/

namespace BuildLog

/-- A character with the style it is drawn in. -/
structure Glyph where
  char : Char
  style : Style
  deriving DecidableEq, Repr

/-- A text in one style. -/
structure Run where
  text : Text
  style : Style := {}
  deriving DecidableEq, Repr

namespace Run

def glyphs (r : Run) : List Glyph := r.text.map fun c => ⟨c, r.style⟩

/-- Put a glyph in front of runs. -/
def consGlyph (g : Glyph) : List Run → List Run
  | [] => [⟨[g.char], g.style⟩]
  | r :: rest => if g.style = r.style then ⟨g.char :: r.text, r.style⟩ :: rest
    else ⟨[g.char], g.style⟩ :: r :: rest

def join (gs : List Glyph) : List Run := gs.foldr consGlyph []

@[simp] theorem join_nil : join [] = [] := rfl

@[simp] theorem join_cons (g : Glyph) (gs : List Glyph) :
    join (g :: gs) = consGlyph g (join gs) := rfl

theorem flatMap_glyphs_consGlyph (g : Glyph) (rs : List Run) :
    (consGlyph g rs).flatMap glyphs = g :: rs.flatMap glyphs := by
  cases rs with
  | nil => simp [consGlyph, glyphs]
  | cons r rest =>
    by_cases h : g.style = r.style
    · simp [consGlyph, glyphs, ← h]
    · simp [consGlyph, glyphs, h]

/-- Joining glyphs to runs keeps every glyph in its place. -/
theorem flatMap_glyphs_join (gs : List Glyph) : (join gs).flatMap glyphs = gs := by
  induction gs with
  | nil => rfl
  | cons g gs ih => rw [join_cons, flatMap_glyphs_consGlyph, ih]

theorem text_ne_nil_of_mem_consGlyph {g : Glyph} {rs : List Run}
    (h : ∀ r ∈ rs, r.text ≠ []) : ∀ r ∈ consGlyph g rs, r.text ≠ [] := by
  cases rs with
  | nil => simp [consGlyph]
  | cons r rest =>
    intro s hs
    by_cases e : g.style = r.style
    · simp only [consGlyph, e, if_true, List.mem_cons] at hs
      rcases hs with rfl | hs
      · simp
      · exact h s (by simp [hs])
    · simp only [consGlyph, e, if_false, List.mem_cons] at hs
      rcases hs with rfl | hs
      · simp
      · exact h s (by simpa using hs)

/-- Joined runs are not empty. -/
theorem text_ne_nil_of_mem_join (gs : List Glyph) : ∀ r ∈ join gs, r.text ≠ [] := by
  induction gs with
  | nil => simp
  | cons g gs ih => exact text_ne_nil_of_mem_consGlyph ih

end Run

end BuildLog
