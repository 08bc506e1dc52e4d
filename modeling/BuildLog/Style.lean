/-!
# Styles

The colours and modifiers a character can be drawn with, and laying one style over another.

* `Style.patch_default`: laying the plain style over a style changes nothing.
* `Style.default_patch`: over the plain style, a style is itself.
-/

namespace BuildLog

/-- The eight hues of the basic palette. -/
inductive Hue where
  | black | red | green | yellow | blue | magenta | cyan | white
  deriving DecidableEq, Repr

/-- A colour: a hue of the palette, dark or bright, an entry of the 256-colour table, or a mixture
of red, green and blue. -/
inductive Color where
  | basic (hue : Hue) (bright : Bool)
  | indexed (index : UInt8)
  | rgb (red green blue : UInt8)
  deriving DecidableEq, Repr

/-- What can be switched on for a character besides its colours. -/
structure Modifiers where
  bold : Bool := false
  dim : Bool := false
  italic : Bool := false
  underlined : Bool := false
  slowBlink : Bool := false
  rapidBlink : Bool := false
  reversed : Bool := false
  hidden : Bool := false
  crossedOut : Bool := false
  deriving DecidableEq, Repr

namespace Modifiers

/-- What either of two sets of modifiers switches on. -/
def union (a b : Modifiers) : Modifiers where
  bold := a.bold || b.bold
  dim := a.dim || b.dim
  italic := a.italic || b.italic
  underlined := a.underlined || b.underlined
  slowBlink := a.slowBlink || b.slowBlink
  rapidBlink := a.rapidBlink || b.rapidBlink
  reversed := a.reversed || b.reversed
  hidden := a.hidden || b.hidden
  crossedOut := a.crossedOut || b.crossedOut

@[simp] theorem union_default (a : Modifiers) : a.union {} = a := by simp [union]

@[simp] theorem default_union (a : Modifiers) : union {} a = a := by simp [union]

end Modifiers

/-- How a character is drawn. An absent colour is the one of the surface below. -/
structure Style where
  fg : Option Color := none
  bg : Option Color := none
  modifiers : Modifiers := {}
  deriving DecidableEq, Repr

namespace Style

/-- Lay `upper` over `lower`: its colours win, and the modifiers of both are in force. -/
def patch (lower upper : Style) : Style where
  fg := upper.fg <|> lower.fg
  bg := upper.bg <|> lower.bg
  modifiers := lower.modifiers.union upper.modifiers

@[simp] theorem patch_default (s : Style) : s.patch {} = s := by simp [patch]

@[simp] theorem default_patch (s : Style) : patch {} s = s := by simp [patch]

def inBold (s : Style) : Style := { s with modifiers := { s.modifiers with bold := true } }

def inReverse (s : Style) : Style := { s with modifiers := { s.modifiers with reversed := true } }

end Style

end BuildLog
