import BuildLog.Style
import BuildLog.Text.Number

/-!
# Graphic rendition

The parameters of a "select graphic rendition" sequence change the graphics state: they switch
modifiers on and off and choose colours. Bold also brightens the eight basic foreground colours
that are chosen while it is in force.

* `applyCodes_nil`, `applyCodes_cons`: the codes act one after the other, and an extended colour
  takes the operands behind it with it.
* `Extended.read_used_le`: an extended colour never takes more operands than there are.
-/

namespace BuildLog

/-- What the sequences read so far have selected. -/
structure Graphics where
  fg : Option Color := none
  bg : Option Color := none
  modifiers : Modifiers := {}
  /-- Whether basic foreground colours are chosen in their bright variant. -/
  bright : Bool := false
  deriving DecidableEq, Repr

namespace Graphics

/-- The style of the characters written in a state. -/
def style (g : Graphics) : Style := { fg := g.fg, bg := g.bg, modifiers := g.modifiers }

/-- The hue with a number of the palette. -/
def hue : Nat → Hue
  | 0 => .black
  | 1 => .red
  | 2 => .green
  | 3 => .yellow
  | 4 => .blue
  | 5 => .magenta
  | 6 => .cyan
  | _ => .white

def modify (g : Graphics) (f : Modifiers → Modifiers) : Graphics :=
  { g with modifiers := f g.modifiers }

/-- The effect of a code that takes no operands; an unknown code has none. -/
def select (g : Graphics) (code : Nat) : Graphics :=
  match code with
  | 0 => {}
  | 1 => { g with bright := true, modifiers := { g.modifiers with bold := true } }
  | 2 => g.modify fun m => { m with dim := true }
  | 3 => g.modify fun m => { m with italic := true }
  | 4 => g.modify fun m => { m with underlined := true }
  | 5 => g.modify fun m => { m with slowBlink := true }
  | 6 => g.modify fun m => { m with rapidBlink := true }
  | 7 => g.modify fun m => { m with reversed := true }
  | 8 => g.modify fun m => { m with hidden := true }
  | 9 => g.modify fun m => { m with crossedOut := true }
  | 22 => { g with bright := false, modifiers := { g.modifiers with bold := false, dim := false } }
  | 23 => g.modify fun m => { m with italic := false }
  | 24 => g.modify fun m => { m with underlined := false }
  | 25 => g.modify fun m => { m with slowBlink := false, rapidBlink := false }
  | 27 => g.modify fun m => { m with reversed := false }
  | 28 => g.modify fun m => { m with hidden := false }
  | 29 => g.modify fun m => { m with crossedOut := false }
  | 39 => { g with fg := none }
  | 49 => { g with bg := none }
  | n =>
    if 30 ≤ n ∧ n ≤ 37 then { g with fg := some (.basic (hue (n - 30)) g.bright) }
    else if 40 ≤ n ∧ n ≤ 47 then { g with bg := some (.basic (hue (n - 40)) false) }
    else if 90 ≤ n ∧ n ≤ 97 then { g with fg := some (.basic (hue (n - 90)) true) }
    else if 100 ≤ n ∧ n ≤ 107 then { g with bg := some (.basic (hue (n - 100)) true) }
    else g

/-- The two surfaces an extended colour can be chosen for. -/
inductive Layer where
  | foreground
  | background
  deriving DecidableEq, Repr

/-- The layer of a code that takes an extended colour. -/
def Layer.ofCode? (code : Nat) : Option Layer :=
  if code = 38 then some .foreground else if code = 48 then some .background else none

/-- Choose a colour for a layer; without a colour the layer stays as it is. -/
def paint (g : Graphics) (layer : Layer) (color : Option Color) : Graphics :=
  match layer with
  | .foreground => { g with fg := color <|> g.fg }
  | .background => { g with bg := color <|> g.bg }

/-- The operands of an extended colour: the colour, if they make one, and how many were used. -/
structure Extended where
  color : Option Color
  used : Nat
  deriving DecidableEq, Repr

/-- A number as a byte, if it is one. -/
def byte? (n : Nat) : Option UInt8 := if n < 256 then some (UInt8.ofNat n) else none

/-- The mixture of three numbers, if each is a byte. -/
def mixture? (r g b : Nat) : Option Color :=
  match byte? r, byte? g, byte? b with
  | some r, some g, some b => some (.rgb r g b)
  | _, _, _ => none

/-- Read the operands of an extended colour: `5` and an index, or `2` and three parts. A group
that breaks off takes all that is left of it; any other operand is not taken. -/
def Extended.read : List Nat → Extended
  | 5 :: index :: _ => ⟨(byte? index).map .indexed, 2⟩
  | 2 :: r :: g :: b :: _ => ⟨mixture? r g b, 4⟩
  | [5] => ⟨none, 1⟩
  | 2 :: rest => ⟨none, rest.length + 1⟩
  | _ => ⟨none, 0⟩

theorem Extended.read_used_le (operands : List Nat) :
    (Extended.read operands).used ≤ operands.length := by
  unfold Extended.read
  split <;> simp

/-- Let codes act on a state, one after the other. -/
def applyCodes (g : Graphics) : List Nat → Graphics
  | [] => g
  | code :: rest =>
    match Layer.ofCode? code with
    | none => (g.select code).applyCodes rest
    | some layer =>
      let extended := Extended.read rest
      (g.paint layer extended.color).applyCodes (rest.drop extended.used)
termination_by codes => codes.length
decreasing_by
  all_goals
    simp only [List.length_drop, List.length_cons]
    omega

/-- The codes that a parameter text lists. A parameter that is no 16-bit number counts as `0`, and
so does an absent one. -/
def codes (params : Text) : List Nat :=
  (Text.splitWhere (fun c => c == ';' || c == ':') params).map fun part =>
    match Text.Number.read Text.Number.largest16 part with
    | .ok n => n
    | .error _ => 0

/-- Let the parameters of a sequence act on a state. -/
def apply (g : Graphics) (params : Text) : Graphics := g.applyCodes (codes params)

@[simp] theorem applyCodes_nil (g : Graphics) : g.applyCodes [] = g := by rw [applyCodes]

theorem applyCodes_cons_of_none {g : Graphics} {code : Nat} {rest : List Nat}
    (h : Layer.ofCode? code = none) :
    g.applyCodes (code :: rest) = (g.select code).applyCodes rest := by
  rw [applyCodes, h]

theorem applyCodes_cons_of_some {g : Graphics} {code : Nat} {rest : List Nat} {layer : Layer}
    (h : Layer.ofCode? code = some layer) :
    g.applyCodes (code :: rest) =
      (g.paint layer (Extended.read rest).color).applyCodes
        (rest.drop (Extended.read rest).used) := by
  rw [applyCodes, h]

end Graphics

end BuildLog
