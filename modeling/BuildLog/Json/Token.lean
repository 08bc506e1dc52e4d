import BuildLog.Json.Numeral

/-!
# JSON tokens

A JSON text is first cut into tokens. The text is read character by character; at each place the
reader knows what may come next, so a text that breaks the rules is refused at the first character
that does.

A string may write characters beyond 16 bits as pairs of escapes. A string that holds half of a pair
is well formed and yet has no text: `text?`.

* `scan_nil`, `scan_cons`: reading is one step for each character.
-/

namespace BuildLog.Json

/-- A piece of a string: a character, or a 16-bit unit that was written as an escape. -/
inductive Piece where
  | char (c : Char)
  | unit (value : Nat)
  deriving DecidableEq, Repr

namespace Piece

/-- Whether a unit is the first half of a pair. -/
def isHigh (unit : Nat) : Bool := 0xD800 ≤ unit && unit ≤ 0xDBFF

/-- Whether a unit is the second half of a pair. -/
def isLow (unit : Nat) : Bool := 0xDC00 ≤ unit && unit ≤ 0xDFFF

/-- The character that a pair writes. -/
def combine (high low : Nat) : Char :=
  Char.ofNat (0x10000 + (high - 0xD800) * 0x400 + (low - 0xDC00))

/-- The text that pieces write, unless they hold half of a pair. -/
def text? : List Piece → Option Text
  | [] => some []
  | char c :: rest => (text? rest).map (c :: ·)
  | unit high :: unit low :: rest =>
    if isHigh high then
      if isLow low then (text? rest).map (combine high low :: ·) else none
    else if isLow high then none
    else (text? (unit low :: rest)).map (Char.ofNat high :: ·)
  | unit value :: rest =>
    if isHigh value || isLow value then none else (text? rest).map (Char.ofNat value :: ·)

end Piece

/-- A token of a JSON text. -/
inductive Token where
  | comma
  | colon
  | openArray
  | closeArray
  | openObject
  | closeObject
  | null
  | bool (value : Bool)
  | number (value : Numeral)
  /-- A string with its text, unless it holds half of a pair. -/
  | string (value : Option Text)
  deriving DecidableEq, Repr

/-- How much of a numeral has been read. The digits read so far are in reverse. -/
inductive Digits where
  /-- A minus sign. -/
  | minus
  /-- A zero, which no further whole digit may follow. -/
  | zero (negative : Bool)
  | whole (negative : Bool) (digits : List Nat)
  /-- The point, which a digit has to follow. -/
  | point (negative : Bool) (whole : List Nat)
  | fraction (negative : Bool) (whole digits : List Nat)
  /-- The mark of an exponent, which a sign or a digit has to follow. -/
  | mark (mantissa : Numeral)
  /-- The sign of an exponent, which a digit has to follow. -/
  | sign (mantissa : Numeral) (negative : Bool)
  | exponent (mantissa : Numeral) (negative : Bool) (digits : List Nat)
  deriving DecidableEq, Repr

namespace Digits

/-- The numeral that has been read, if it may end here. -/
def numeral? : Digits → Option Numeral
  | zero negative => some { negative := negative, whole := [0] }
  | whole negative digits => some { negative := negative, whole := digits.reverse }
  | fraction negative before digits =>
    some { negative := negative, whole := before.reverse, fraction := some digits.reverse }
  | exponent mantissa negative digits =>
    some { mantissa with exponent := some ⟨negative, digits.reverse⟩ }
  | minus | point .. | mark .. | sign .. => none

def digit? (c : Char) : Option Nat := Text.Number.digit? c

/-- Go on behind a whole part with a character other than a digit. -/
def afterWhole (negative : Bool) (digits : List Nat) (c : Char) : Option Digits :=
  if c = '.' then some (point negative digits)
  else if c = 'e' ∨ c = 'E' then some (mark { negative := negative, whole := digits.reverse })
  else none

/-- Go on with a character, if the numeral can go on with it. -/
def step (d : Digits) (c : Char) : Option Digits :=
  match d with
  | minus =>
    match digit? c with
    | some 0 => some (zero true)
    | some n => some (whole true [n])
    | none => none
  | zero negative => afterWhole negative [0] c
  | whole negative digits =>
    match digit? c with
    | some n => some (whole negative (n :: digits))
    | none => afterWhole negative digits c
  | point negative digits => (digit? c).map fun n => fraction negative digits [n]
  | fraction negative before digits =>
    match digit? c with
    | some n => some (fraction negative before (n :: digits))
    | none =>
      if c = 'e' ∨ c = 'E' then
        some (mark {
          negative := negative, whole := before.reverse, fraction := some digits.reverse })
      else none
  | mark mantissa =>
    match digit? c with
    | some n => some (exponent mantissa false [n])
    | none =>
      if c = '+' then some (sign mantissa false)
      else if c = '-' then some (sign mantissa true)
      else none
  | sign mantissa negative => (digit? c).map fun n => exponent mantissa negative [n]
  | exponent mantissa negative digits =>
    (digit? c).map fun n => exponent mantissa negative (n :: digits)

end Digits

/-- Where a reader stands in a text. The pieces of a string are in reverse. -/
inductive Scan where
  /-- Between tokens. -/
  | between
  /-- In a word, of which some characters are left. -/
  | word (left : Text) (token : Token)
  | number (digits : Digits)
  | string (pieces : List Piece)
  /-- Behind the character that opens an escape. -/
  | escape (pieces : List Piece)
  /-- In an escape that writes a unit, of which some digits are left. -/
  | unicode (pieces : List Piece) (left value : Nat)
  deriving DecidableEq, Repr

namespace Scan

def isSpace (c : Char) : Bool := c == ' ' || c == '\n' || c == '\t' || c == '\r'

def escaped? : Char → Option Char
  | '"' => some '"'
  | '\\' => some '\\'
  | '/' => some '/'
  | 'b' => some '\x08'
  | 'f' => some '\x0c'
  | 'n' => some '\n'
  | 'r' => some '\r'
  | 't' => some '\t'
  | _ => none

def mark? : Char → Option Token
  | ',' => some .comma
  | ':' => some .colon
  | '[' => some .openArray
  | ']' => some .closeArray
  | '\x7b' => some .openObject
  | '\x7d' => some .closeObject
  | _ => none

/-- A character between tokens: the token that it is, and where it leads. -/
def start? (c : Char) : Option (Option Token × Scan) :=
  if isSpace c then some (none, between)
  else
    match mark? c with
    | some token => some (some token, between)
    | none =>
      if c = '"' then some (none, string [])
      else if c = 'n' then some (none, word ['u', 'l', 'l'] .null)
      else if c = 't' then some (none, word ['r', 'u', 'e'] (.bool true))
      else if c = 'f' then some (none, word ['a', 'l', 's', 'e'] (.bool false))
      else if c = '-' then some (none, number .minus)
      else
        match Digits.digit? c with
        | some 0 => some (none, number (.zero false))
        | some n => some (none, number (.whole false [n]))
        | none => none

/-- Read a character: the token that it completes, and where it leads. A numeral is only complete
once a character follows that does not belong to it; that character is then read as one between
tokens. -/
def step (s : Scan) (c : Char) : Option (List Token × Scan) :=
  match s with
  | between => (start? c).map fun (token, next) => (token.toList, next)
  | word [] _ => none
  | word [a] token => if c = a then some ([token], between) else none
  | word (a :: left) token => if c = a then some ([], word left token) else none
  | number digits =>
    match digits.step c with
    | some digits => some ([], number digits)
    | none =>
      match digits.numeral?, start? c with
      | some n, some (token, next) => some (.number n :: token.toList, next)
      | _, _ => none
  | string pieces =>
    if c = '"' then some ([.string (Piece.text? pieces.reverse)], between)
    else if c = '\\' then some ([], escape pieces)
    else if c.toNat < 0x20 then none
    else some ([], string (.char c :: pieces))
  | escape pieces =>
    if c = 'u' then some ([], unicode pieces 4 0)
    else (escaped? c).map fun e => ([], string (.char e :: pieces))
  | unicode pieces left value =>
    match Text.Number.hexDigit? c with
    | none => none
    | some d =>
      let value := 16 * value + d
      if left ≤ 1 then some ([], string (.unit value :: pieces))
      else some ([], unicode pieces (left - 1) value)

/-- The token that the end of the text completes, if the text may end here. -/
def finish : Scan → Option (List Token)
  | between => some []
  | number digits => digits.numeral?.map fun n => [.number n]
  | _ => none

/-- The tokens of a text that is read from some place on. -/
def scan (s : Scan) : Text → Option (List Token)
  | [] => s.finish
  | c :: rest =>
    match s.step c with
    | none => none
    | some (tokens, next) => (next.scan rest).map (tokens ++ ·)

theorem scan_nil (s : Scan) : s.scan [] = s.finish := rfl

theorem scan_cons (s : Scan) (c : Char) (rest : Text) :
    s.scan (c :: rest) =
      (s.step c).bind fun (tokens, next) => (next.scan rest).map (tokens ++ ·) := by
  rw [scan]
  cases s.step c <;> rfl

end Scan

def tokens (s : Text) : Option (List Token) := Scan.between.scan s

end BuildLog.Json
