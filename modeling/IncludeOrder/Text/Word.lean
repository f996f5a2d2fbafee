import IncludeOrder.Text.CodePoint
import IncludeOrder.Text.WordTable

/-!
# Text: word characters

The characters a header's name is made of: letters and marks of every script, decimal digits,
connecting punctuation such as the underscore, and the two joiners.  ASCII characters are decided
directly; the others by the table of `IncludeOrder.Text.WordTable`.
-/

set_option autoImplicit false

namespace IncludeOrder.Text

/-- The block of the table that covers a code point. -/
def wordRangesFor (n : Nat) : List (Nat × Nat) :=
  if n < 0x800 then wordRangesLatin
  else if n < 0x1000 then wordRangesIndic
  else if n < 0x2000 then wordRangesAsian
  else if n < 0x10000 then wordRangesEastern
  else if n < 0x11000 then wordRangesAncient
  else if n < 0x12000 then wordRangesBrahmic
  else wordRangesUpper

/-- The character may stand in a header's name. -/
def isWord (c : Char) : Bool :=
  if c.toNat < 0x80 then c.isAlphanum || c == '_' else inRanges (wordRangesFor c.toNat) c.toNat

end IncludeOrder.Text
