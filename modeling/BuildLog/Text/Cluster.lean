import BuildLog.Text.Columns
import BuildLog.Text.Property.Consonant
import BuildLog.Text.Property.Pictographic
import BuildLog.Text.Property.SpacingMark

/-!
# Grapheme clusters

The characters that a display draws as one: a letter with its marks, the parts of a Hangul
syllable, a pair of regional indicators, pictographs around a joiner. The text is read from left to
right, and each character either joins the cluster before it or begins a new one; the rules are
those of Unicode's extended grapheme clusters.

* `flatten_clusters`: the clusters make up the text.
-/

namespace BuildLog.Text

/-- The zero width joiner. -/
def joiner : Char := '\u200d'

/-- Format characters that never join a cluster, besides the control characters. -/
def formatRanges : Ranges :=
  [(0xAD, 0xAD), (0x61C, 0x61C), (0x180E, 0x180E), (0x200B, 0x200B), (0x200E, 0x200F),
    (0x2028, 0x202E), (0x2060, 0x206F), (0xFEFF, 0xFEFF), (0xFFF0, 0xFFFB), (0x13430, 0x1343F),
    (0x1BCA0, 0x1BCA3), (0x1D173, 0x1D17A), (0xE0000, 0xE001F), (0xE0080, 0xE00FF),
    (0xE01F0, 0xE0FFF)]

/-- The marks that link the consonants of a conjunct. -/
def linkers : List Nat :=
  [0x94D, 0x9CD, 0xACD, 0xB4D, 0xC4D, 0xD4D, 0x1039, 0x17D2, 0x1A60, 0x1B44, 0x1BAB, 0xA9C0, 0xAAF6,
    0x10A3F, 0x11133, 0x113D0, 0x1193E, 0x11A47, 0x11A99, 0x11F42]

/-- The number marks that stand before the digits they belong to. -/
def numberMarkRanges : Ranges :=
  [(0x600, 0x605), (0x6DD, 0x6DD), (0x70F, 0x70F), (0x890, 0x891), (0x8E2, 0x8E2),
    (0x110BD, 0x110BD), (0x110CD, 0x110CD)]

/-- Whether a character stands alone in its cluster. -/
def isolates (c : Char) : Bool := isControl c || formatRanges.contains c

/-- Whether a character joins the cluster before it whatever that is. -/
def isExtending (c : Char) : Bool :=
  c == joiner || isGraphemeExtend c || (0x1F3FB ≤ c.toNat && c.toNat ≤ 0x1F3FF)

/-- Whether the character behind this one joins its cluster. -/
def precedes (c : Char) : Bool := numberMarkRanges.contains c || precedingRanges.contains c

/-- Whether a character is half of a flag. -/
def isRegional (c : Char) : Bool := 0x1F1E6 ≤ c.toNat && c.toNat ≤ 0x1F1FF

/-- Whether a character is a vowel that joins the vowels before it. -/
def isJoiningVowel (c : Char) : Bool :=
  isVowelJamo c || c.toNat == 0x16D63 || (0x16D67 ≤ c.toNat && c.toNat ≤ 0x16D6A)

/-- Whether a character can stand between the consonants of a conjunct. -/
def isConjunctMark (c : Char) : Bool := isExtending c && c.toNat != 0x200C

/-- Whether a cluster, in reverse, ends in a consonant and marks one of which links it. -/
def linksConsonant (cluster : Text) : Bool :=
  (cluster.takeWhile isConjunctMark).any (fun c => linkers.contains c.toNat) &&
    (cluster.dropWhile isConjunctMark).head?.any isConsonant

/-- Whether a cluster, in reverse, ends in a pictograph and a joiner. -/
def joinsPictograph (cluster : Text) : Bool :=
  cluster.head? == some joiner &&
    (cluster.tail.dropWhile fun c => isExtending c && c != joiner).head?.any isPictographic

/-- Whether a syllable goes on from one character to the next. -/
def continuesSyllable (a b : Char) : Bool :=
  (isLeadingJamo a && (isLeadingJamo b || isJoiningVowel b || isSyllable b)) ||
    ((isJoiningVowel a || isOpenSyllable a) && (isJoiningVowel b || isTrailingJamo b)) ||
    ((isTrailingJamo a || isSyllable a) && isTrailingJamo b)

/-- Whether a character joins a cluster, given in reverse. -/
def joins (cluster : Text) (c : Char) : Bool :=
  match cluster with
  | [] => true
  | a :: before =>
    if isolates a || isolates c then a == '\r' && c == '\n'
    else
      continuesSyllable a c || isExtending c || isSpacingMark c || precedes a ||
        (isConsonant c && linksConsonant cluster) ||
        (isPictographic c && joinsPictograph cluster) ||
        (isRegional c && isRegional a && !before.head?.any isRegional)

/-- The clusters of a text behind a cluster, given in reverse, that is not yet complete. -/
def clustersFrom : (cluster : Text) → Text → List Text
  | [], [] => []
  | cluster@(_ :: _), [] => [cluster.reverse]
  | cluster, c :: s =>
    if joins cluster c then clustersFrom (c :: cluster) s
    else cluster.reverse :: clustersFrom [c] s

/-- The clusters of a text. -/
def clusters (s : Text) : List Text := clustersFrom [] s

/-- The character that asks for a colourful picture. -/
def pictureSelector : Char := '\ufe0f'

/-- The character that asks for a picture in the style of letters. -/
def letterSelector : Char := '\ufe0e'

/-- The columns that a cluster takes when it is drawn. Pictures take two; a control character takes
one here, because something is drawn in its place. -/
def clusterColumns : Text → Nat
  | [] => 0
  | ['\r', '\n'] => 1
  | [c] => if isControl c then 1 else columns c
  | a :: b :: rest =>
    if isRegional a && isRegional b then 2
    else if isPictographic a && b == letterSelector then 1
    else if b == pictureSelector && (isPictographic a || "0123456789#*".toList.contains a) then 2
    else if isPictographic a && (b == joiner || isExtending b && columns b == 2) then 2
    else width (a :: b :: rest)

theorem flatten_clustersFrom (cluster s : Text) :
    (clustersFrom cluster s).flatten = cluster.reverse ++ s := by
  induction s generalizing cluster with
  | nil => cases cluster <;> simp [clustersFrom]
  | cons c s ih => cases cluster <;> simp only [clustersFrom] <;> split <;> simp [ih]

/-- The clusters of a text make up the text. -/
theorem flatten_clusters (s : Text) : (clusters s).flatten = s := flatten_clustersFrom [] s

end BuildLog.Text
