import MonkeyFrontEnd.Text.Cluster.Conjunct
import MonkeyFrontEnd.Text.Cluster.Control
import MonkeyFrontEnd.Text.Cluster.Mark
import MonkeyFrontEnd.Text.Cluster.Pictograph
import MonkeyFrontEnd.Text.Combining

/-!
# What a character does to its neighbours

Every character has one class, by which it is told whether it forms one cluster with the character
before it. Hangul syllables are `open` or `closed`, as they end in a vowel or in a consonant; the
other three Hangul classes are the parts from which syllables are put together.
-/

set_option autoImplicit false

namespace MonkeyFrontEnd.Text.Cluster

/-- The class of a character. -/
inductive Class
  | other
  | carriageReturn
  | lineFeed
  | control
  | extend
  | linker
  | joiner
  | nonJoiner
  | spacingMark
  | prependedMark
  | leadingConsonant
  | vowel
  | trailingConsonant
  | openSyllable
  | closedSyllable
  | consonant
  | pictograph
  | regional
  deriving DecidableEq

/-- The number of Hangul syllables that differ only in their trailing consonant. -/
def trailingCount : Nat := 28

/-- The class of a Hangul syllable or of a part of one. -/
def hangulClass? (c : Char) : Option Class :=
  if inRanges [(0x1100, 0x115F), (0xA960, 0xA97C)] c then some .leadingConsonant
  else if inRanges [(0x1160, 0x11A7), (0xD7B0, 0xD7C6), (0x16D63, 0x16D63), (0x16D67, 0x16D6A)] c
    then some .vowel
  else if inRanges [(0x11A8, 0x11FF), (0xD7CB, 0xD7FB)] c then some .trailingConsonant
  else if inRanges [(0xAC00, 0xD7A3)] c then
    if (c.toNat - 0xAC00) % trailingCount = 0 then some .openSyllable else some .closedSyllable
  else none

namespace Class

/-- The class of `c`. The first line only says what the rest would say of printable ASCII too. -/
def ofChar (c : Char) : Class :=
  if ' ' ≤ c && c ≤ '~' then .other
  else if c = '\r' then .carriageReturn
  else if c = '\n' then .lineFeed
  else if c = '\u200c' then .nonJoiner
  else if c = '\u200d' then .joiner
  else if isControl c then .control
  else if isLinker c then .linker
  else if isCombining c || isSkinTone c then .extend
  else if isSpacingMark c then .spacingMark
  else if isPrependedMark c then .prependedMark
  else if isConsonant c then .consonant
  else if isPictograph c then .pictograph
  else if inRanges [(0x1F1E6, 0x1F1FF)] c then .regional
  else (hangulClass? c).getD .other

/-- Characters of the class stand by themselves. -/
def isAlone : Class → Bool
  | .carriageReturn | .lineFeed | .control => true
  | _ => false

/-- Characters of the class belong to the character before them. -/
def isMark : Class → Bool
  | .extend | .linker | .joiner | .nonJoiner | .spacingMark => true
  | _ => false

/-- The two are neighbouring parts of one Hangul syllable. -/
def inSyllable : Class → Class → Bool
  | .leadingConsonant, .leadingConsonant | .leadingConsonant, .vowel
  | .leadingConsonant, .openSyllable | .leadingConsonant, .closedSyllable => true
  | .openSyllable, .vowel | .openSyllable, .trailingConsonant => true
  | .vowel, .vowel | .vowel, .trailingConsonant => true
  | .closedSyllable, .trailingConsonant | .trailingConsonant, .trailingConsonant => true
  | _, _ => false

end Class

end MonkeyFrontEnd.Text.Cluster
