import IncludeOrder.Text.CodePoint

/-!
# Text: blank characters

A character is blank when Unicode gives it the property White_Space: 25 code points, the line
terminators among them.  Blanks may stand between the parts of an include directive, and a setting
made of blanks only is refused.
-/

set_option autoImplicit false

namespace IncludeOrder.Text

/-- The code points with the property White_Space. -/
def blankRanges : List (Nat × Nat) :=
  [(0x9, 0xD), (0x20, 0x20), (0x85, 0x85), (0xA0, 0xA0), (0x1680, 0x1680), (0x2000, 0x200A),
   (0x2028, 0x2029), (0x202F, 0x202F), (0x205F, 0x205F), (0x3000, 0x3000)]

/-- The character is white space. -/
def isBlank (c : Char) : Bool := inRanges blankRanges c.toNat

/-- Nothing but blanks, the empty text included. -/
def isBlankText (text : List Char) : Bool := text.all isBlank

/-- The text from its first character that is not blank. -/
def dropBlanks (text : List Char) : List Char := text.dropWhile isBlank

@[simp] theorem isBlankText_cons (c : Char) (text : List Char) :
    isBlankText (c :: text) = (isBlank c && isBlankText text) := by
  simp [isBlankText]

theorem dropBlanks_append_of_blank {blanks : List Char} (h : isBlankText blanks = true)
    (text : List Char) : dropBlanks (blanks ++ text) = dropBlanks text := by
  induction blanks with
  | nil => rfl
  | cons c rest ih =>
    simp only [isBlankText_cons, Bool.and_eq_true] at h
    simpa [dropBlanks, h.1] using ih h.2

theorem dropBlanks_cons_of_not_blank {c : Char} (h : isBlank c = false) (text : List Char) :
    dropBlanks (c :: text) = c :: text := by
  simp [dropBlanks, h]

end IncludeOrder.Text
