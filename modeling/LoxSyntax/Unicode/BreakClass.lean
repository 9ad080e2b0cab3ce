import LoxSyntax.Unicode.Conjunct
import LoxSyntax.Unicode.Extender
import LoxSyntax.Unicode.Pictograph
import LoxSyntax.Unicode.SpacingMark

/-! # Break classes

What a character does to the boundaries beside it, for splitting a text into the units that a
reader takes for single characters. The classes are those of the Unicode 17 text segmentation, with
the pictographs and the consonants of conjuncts as classes of their own.
-/

namespace LoxSyntax.Unicode

/-- The part of a character in the boundaries beside it. -/
inductive BreakClass where
  | carriageReturn
  | lineFeed
  | control
  | extender
  | joiner
  | spacingMark
  | leadingMark
  | leadingJamo
  | vowelJamo
  | trailingJamo
  | openSyllable
  | closedSyllable
  | consonant
  | pictograph
  | regional
  | other
deriving DecidableEq

/-- The ranges of the controls and of the invisible format characters. -/
def controlRanges : List (Nat × Nat) := [
  (0x0, 0x1F), (0x7F, 0x9F), (0xAD, 0xAD), (0x61C, 0x61C), (0x180E, 0x180E), (0x200B, 0x200B),
  (0x200E, 0x200F), (0x2028, 0x202E), (0x2060, 0x206F), (0xFEFF, 0xFEFF), (0xFFF0, 0xFFFB),
  (0x13430, 0x1343F), (0x1BCA0, 0x1BCA3), (0x1D173, 0x1D17A), (0xE0000, 0xE001F),
  (0xE0080, 0xE00FF), (0xE01F0, 0xE0FFF)]

def leadingJamoRanges : List (Nat × Nat) := [(0x1100, 0x115F), (0xA960, 0xA97C)]

/-- The ranges of the vowels of Hangul, and of the Kirat Rai vowels that combine like them. -/
def vowelJamoRanges : List (Nat × Nat) :=
  [(0x1160, 0x11A7), (0xD7B0, 0xD7C6), (0x16D63, 0x16D63), (0x16D67, 0x16D6A)]

def trailingJamoRanges : List (Nat × Nat) := [(0x11A8, 0x11FF), (0xD7CB, 0xD7FB)]

def zeroWidthJoiner : Char := '\u200d'

def zeroWidthNonJoiner : Char := '\u200c'

/-- The Hangul syllables stand in groups of 28, one without a trailing consonant and 27 with. -/
def hangulSyllable? (n : Nat) : Option BreakClass :=
  if 0xAC00 ≤ n ∧ n ≤ 0xD7A3 then
    some (if (n - 0xAC00) % 28 = 0 then .openSyllable else .closedSyllable)
  else none

/-- The class of a character. Of the printable ASCII characters none does anything. -/
def BreakClass.ofChar (c : Char) : BreakClass :=
  let n := c.toNat
  if 0x20 ≤ n ∧ n < 0x7F then .other
  else if c = '\r' then .carriageReturn
  else if c = '\n' then .lineFeed
  else if liesIn controlRanges n then .control
  else if c = zeroWidthJoiner then .joiner
  else if isExtender c then .extender
  else if isSpacingMark c then .spacingMark
  else if isLeadingMark c then .leadingMark
  else if isConsonant c then .consonant
  else if isPictograph c then .pictograph
  else if 0x1F1E6 ≤ n ∧ n ≤ 0x1F1FF then .regional
  else if liesIn leadingJamoRanges n then .leadingJamo
  else if liesIn vowelJamoRanges n then .vowelJamo
  else if liesIn trailingJamoRanges n then .trailingJamo
  else (hangulSyllable? n).getD .other

end LoxSyntax.Unicode
