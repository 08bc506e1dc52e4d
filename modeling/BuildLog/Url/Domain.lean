import BuildLog.Text.Property.Direction
import BuildLog.Text.Property.Joining
import BuildLog.Text.Property.SpacingMark
import BuildLog.Url.Domain.Folding
import BuildLog.Url.Domain.Refused
import BuildLog.Url.Punycode

/-!
# Domain names

A domain name is a text of labels with full stops between them. It is first folded to what its
characters stand for; then each label is checked, and a label in Punycode is checked as what it
writes. An ASCII label other than one in Punycode is always well formed.

* `labels?_nil`: the empty text is no domain name.
-/

namespace BuildLog.Domain

open Text (Direction)

/-- Whether a character is an ASCII character. -/
def isAscii (c : Char) : Bool := c.toNat < 0x80

/-- The visible ASCII characters that a domain name may not hold. -/
def forbidden : Text := "%#/:<>?@[\\]^|".toList

/-- Whether a domain name may hold a character. -/
def isAllowed (c : Char) : Bool :=
  if isAscii c then 0x20 < c.toNat && c.toNat != 0x7F && c ∉ forbidden else !isRefused c

/-- Whether a domain name may hold a character that stands for nothing but itself. -/
def isPlain (c : Char) : Bool := isAllowed c && fold c == [c]

/-- What starts a label in Punycode. -/
def punycodeMark : Text := "xn--".toList

/-- What a label writes. -/
def decodeLabel? (label : Text) : Option Text :=
  match Text.after? punycodeMark label with
  | none => some label
  | some code =>
    (Punycode.decode? code).filter fun decoded => decoded.any (!isAscii ·) && decoded.all isPlain

/-- The code points of marks that begin a cluster of their own. -/
def otherMarkRanges : Text.Ranges :=
  [(0x102B, 0x102C), (0x1038, 0x1038), (0x1062, 0x1064), (0x1067, 0x106D), (0x1083, 0x1083),
    (0x1087, 0x108C), (0x108F, 0x108F), (0x109A, 0x109C), (0x1A61, 0x1A61), (0x1A63, 0x1A64),
    (0xAA7B, 0xAA7B), (0xAA7D, 0xAA7D), (0x11720, 0x11721)]

/-- Whether a character is a mark. -/
def isMark (c : Char) : Bool :=
  Text.isGraphemeExtend c || Text.isSpacingMark c || otherMarkRanges.contains c

/-- The character that keeps letters from joining. -/
def nonJoiner : Char := '\u200c'

/-- The character that makes letters join. -/
def joiner : Char := '\u200d'

/-- The closest character that is not drawn on another one. -/
def closestBase (s : Text) : Option Char := (s.dropWhile Text.isGraphemeExtend).head?

/-- Whether a joiner has an effect behind a text in reverse and before another text: each of them
behind a mark that joins consonants, a non-joiner also between letters that would join. -/
def hasEffect (c : Char) (before after : Text) : Bool :=
  before.head?.any Text.isVirama ||
    (c == nonJoiner && (closestBase before).any Text.joinsNext &&
      (closestBase after).any Text.joinsPrevious)

/-- Whether all joiners of a text have an effect, behind a text in reverse. -/
def joinersFit (before : Text) : Text → Bool
  | [] => true
  | c :: rest =>
    ((c != nonJoiner && c != joiner) || hasEffect c before rest) && joinersFit (c :: before) rest

/-- Whether a label beyond ASCII is well formed, apart from its direction. -/
def isWellFormed (label : Text) : Bool := !label.head?.any isMark && joinersFit [] label

/-- The last direction that is not one of a mark. -/
def lastDirection (directions : List Direction) : Option Direction :=
  (directions.filter (· != .mark)).getLast?

/-- Whether a label has one direction throughout. -/
def hasOneDirection (label : Text) : Bool :=
  let directions := label.map Text.direction
  match directions with
  | [] => true
  | .rightToLeft :: _ =>
    directions.all (· != .leftToRight) &&
      (lastDirection directions).any (· != .neutral) &&
      !(directions.contains .arabicNumber && directions.contains .europeanNumber)
  | .leftToRight :: _ =>
    directions.all (fun d => d != .rightToLeft && d != .arabicNumber) &&
      (lastDirection directions).any (· != .neutral)
  | _ => false

/-- Whether a label is written from right to left in some part. -/
def turns (label : Text) : Bool :=
  label.any fun c => Text.direction c == .rightToLeft || Text.direction c == .arabicNumber

/-- Whether the labels of a domain name may stand together: once one of them is written from right
to left in some part, each has to have one direction. -/
def fit (labels : List Text) : Bool := !labels.any turns || labels.all hasOneDirection

/-- The folded labels of a text, if it is a domain name. -/
def labels? (s : Text) : Option (List Text) :=
  let folded := s.flatMap fold
  let labels := Text.splitWhere (· == '.') folded
  match labels.mapM decodeLabel? with
  | none => none
  | some decoded =>
    if !folded.isEmpty && s.all isAllowed && fit decoded &&
        decoded.all (fun label => label.all isAscii || isWellFormed label) then
      some labels
    else none

theorem labels?_nil : labels? [] = none := rfl

end BuildLog.Domain
