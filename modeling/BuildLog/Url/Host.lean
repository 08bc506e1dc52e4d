import BuildLog.Text.Number
import BuildLog.Url.Domain
import BuildLog.Url.Percent

/-!
# Hosts

The host of an address is a domain name or a number: a version 4 address, whose parts may be
decimal, octal or hexadecimal, or a version 6 address in brackets.

A name whose last label is a number has to be a version 4 address.

* `ofText?_nil`: there is always a host.
-/

namespace BuildLog

/-- The host of an address. -/
inductive Host where
  | name (labels : List Text)
  | version4 (value : Nat)
  | version6 (pieces : List Nat)
  deriving DecidableEq, Repr

namespace Host

/-- The number that digits to a base write. No digits write zero. -/
def valueInBase? (base : Nat) (s : Text) : Option Nat :=
  s.foldlM (fun n c => (Text.Number.hexDigit? c).bind fun d =>
    if d < base then some (base * n + d) else none) 0

/-- The number that a part of a version 4 address writes: hexadecimal behind `0x`, octal behind
another `0`, decimal otherwise. -/
def number? : Text → Option Nat
  | [] => none
  | '0' :: 'x' :: s => valueInBase? 16 s
  | '0' :: s => valueInBase? 8 s
  | s => valueInBase? 10 s

/-- Labels without the empty one behind a full stop at the end. -/
def withoutRoot (labels : List Text) : List Text :=
  if labels.getLast? = some [] then labels.dropLast else labels

/-- Whether the last label is a number. -/
def endsInNumber (labels : List Text) : Bool :=
  (withoutRoot labels).getLast?.any fun label =>
    (!label.isEmpty && label.all Char.isDigit) || (number? label).isSome

/-- The version 4 address that numbers make: each tells a byte, the last one all bytes that are
left. -/
def version4OfNumbers? (value count : Nat) : List Nat → Option Nat
  | [] => none
  | [n] =>
    let left := Nat.pow 256 (4 - count)
    if count < 4 && n < left then some (value * left + n) else none
  | n :: rest => if n < 256 then version4OfNumbers? (value * 256 + n) (count + 1) rest else none

/-- The version 4 address that labels write. -/
def version4? (labels : List Text) : Option Nat :=
  ((withoutRoot labels).mapM number?).bind (version4OfNumbers? 0 0)

/-- The pieces of a version 6 address that a version 4 address in it makes. Its parts are decimal
and have no zero before other digits. -/
def embedded? (s : Text) : Option (List Nat) :=
  let part? (t : Text) : Option Nat :=
    if t.isEmpty || (1 < t.length && t.head? == some '0') then none
    else (valueInBase? 10 t).filter (· < 256)
  match (Text.splitWhere (· == '.') s).mapM part? with
  | some [a, b, c, d] => some [256 * a + b, 256 * c + d]
  | _ => none

/-- The piece that one to four hexadecimal digits write. -/
def piece? (s : Text) : Option Nat :=
  if s.isEmpty || 4 < s.length then none else valueInBase? 16 s

/-- The pieces that the parts between colons write. The last one may be a version 4 address, where
the address ends. -/
def pieces? (atEnd : Bool) : List Text → Option (List Nat)
  | [] => some []
  | [s] => if atEnd && s.contains '.' then embedded? s else (piece? s).map fun n => [n]
  | s :: rest => do return (← piece? s) :: (← pieces? atEnd rest)

/-- The pieces that a text with colons writes. -/
def side? (atEnd : Bool) (s : Text) : Option (List Nat) :=
  if s.isEmpty then some [] else pieces? atEnd (Text.splitWhere (· == ':') s)

/-- The texts before and behind the first double colon. -/
def cut? : Text → Option (Text × Text)
  | [] => none
  | ':' :: ':' :: rest => some ([], rest)
  | c :: rest => (cut? rest).map fun (before, after) => (c :: before, after)

/-- The version 6 address that a text writes: eight pieces, of which a double colon leaves out one
or more zeros. -/
def version6? (s : Text) : Option (List Nat) :=
  match cut? s with
  | none => (side? true s).filter (·.length = 8)
  | some (before, after) => do
    let front ← side? false before
    let back ← side? true after
    let known := front.length + back.length
    if known ≤ 7 then some (front ++ List.replicate (8 - known) 0 ++ back) else none

/-- The host that a text in brackets writes. -/
def bracketed? (s : Text) : Option Host :=
  if s.getLast? = some ']' then (version6? s.dropLast).map .version6 else none

/-- The host that a text without brackets writes. -/
def named? (s : Text) : Option Host :=
  ((Percent.decode? s).bind Domain.labels?).bind fun labels =>
    if endsInNumber labels then (version4? labels).map .version4 else some (.name labels)

def ofText? : Text → Option Host
  | '[' :: s => bracketed? s
  | s => named? s

theorem ofText?_nil : ofText? [] = none := by decide +kernel

end Host

end BuildLog
