import BuildLog.Text.Property

/-!
# Hangul

The jamo of Hangul and the syllables they make. Vowels and final consonants are drawn into the block
of the leading consonant or syllable before them.
-/

namespace BuildLog.Text

/-- The leading consonants. -/
def leadingJamoRanges : Ranges := [(0x1100, 0x115F), (0xA960, 0xA97C)]

/-- The vowels. -/
def vowelJamoRanges : Ranges := [(0x1160, 0x11A7), (0xD7B0, 0xD7C6)]

/-- The final consonants. -/
def trailingJamoRanges : Ranges := [(0x11A8, 0x11FF), (0xD7CB, 0xD7FB)]

/-- Whether a character is a leading consonant. -/
def isLeadingJamo (c : Char) : Bool := leadingJamoRanges.contains c

/-- Whether a character is a vowel. -/
def isVowelJamo (c : Char) : Bool := vowelJamoRanges.contains c

/-- Whether a character is a final consonant. -/
def isTrailingJamo (c : Char) : Bool := trailingJamoRanges.contains c

/-- Whether a character is a syllable. -/
def isSyllable (c : Char) : Bool := 0xAC00 ≤ c.toNat && c.toNat ≤ 0xD7A3

/-- Whether a character is a syllable without a final consonant: each leading consonant and vowel
has one, and it is followed by those with the 27 final consonants. -/
def isOpenSyllable (c : Char) : Bool := isSyllable c && (c.toNat - 0xAC00) % 28 == 0

end BuildLog.Text
