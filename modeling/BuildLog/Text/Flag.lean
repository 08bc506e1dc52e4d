import BuildLog.Text.Blank

/-!
# Flags

The words that switch something on or off. Blanks around a word and its letter case do not count.
Lower case is that of the letters `A` to `Z`: no other letter has one of the words' letters as its
lower case.
-/

namespace BuildLog.Text.Flag

/-- The words that mean "on". -/
def on : List Text := ["true".toList, "1".toList, "yes".toList, "on".toList]

/-- The words that mean "off". -/
def off : List Text := ["false".toList, "0".toList, "no".toList, "off".toList]

def read? (s : Text) : Option Bool :=
  let word := (trim s).map Char.toLower
  if word ∈ on then some true else if word ∈ off then some false else none

end BuildLog.Text.Flag
