import BuildLog.Json.Value

/-!
# The resume offset

The server answers with a JSON array in a header whose first item is the offset to go on from.
Anything else counts as zero, which never moves a poller: an absent header, another value, and an
array with an item that cannot be held, such as a number too large for a double.

* `ofHeader_none`: without a header the offset is zero.
-/

namespace BuildLog.Offset

/-- The most arrays and objects that may be open at once. -/
def deepest : Nat := 127

/-- How deep tokens are nested, at most, behind `depth` open arrays and objects. -/
def nesting (depth : Nat) : List Json.Token → Nat
  | [] => depth
  | t :: ts =>
    match t with
    | .openArray | .openObject => nesting (depth + 1) ts
    | .closeArray | .closeObject => max depth (nesting (depth - 1) ts)
    | _ => nesting depth ts

/-- Whether a token can be held: a string needs a text, and a number must not be too large. -/
def isHeld : Json.Token → Bool
  | .string value => value.isSome
  | .number value => value.isFinite
  | _ => true

/-- The natural number that a value is, if it is one. -/
def natural? : Json.Value → Option Nat
  | .number n => n.natural?
  | _ => none

def ofTokens? (ts : List Json.Token) : Option Nat :=
  if ts.all isHeld ∧ nesting 0 ts ≤ deepest then
    match Json.Value.ofTokens? ts with
    | some (.array (first :: _)) => natural? first
    | _ => none
  else none

def ofHeader (header : Option Text) : Nat :=
  ((header.bind Json.tokens).bind ofTokens?).getD 0

@[simp] theorem ofHeader_none : ofHeader none = 0 := rfl

end BuildLog.Offset
