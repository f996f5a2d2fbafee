/-!
# Text: lines and their endings

A text is cut at every line feed, every carriage return, and every carriage return with the line
feed after it (one ending, not two).  No line follows the last ending, so the empty text has no
line at all.  A line keeps the ending it had, which makes the cut lossless: `written_segments`.
-/

set_option autoImplicit false

namespace IncludeOrder.Text

/-- How a line ended. -/
inductive Ending where
  /-- a line feed -/
  | lf
  /-- a carriage return and a line feed -/
  | crlf
  /-- a carriage return that no line feed follows -/
  | cr
  deriving DecidableEq, Repr, Inhabited

/-- The characters of an ending. -/
def Ending.written : Ending → List Char
  | .lf => ['\n']
  | .crlf => ['\r', '\n']
  | .cr => ['\r']

/-- A line and its ending; only the last line of a text may have none. -/
structure Segment where
  text : List Char
  ending : Option Ending
  deriving DecidableEq, Repr, Inhabited

/-- The characters a segment was cut from. -/
def Segment.written (s : Segment) : List Char :=
  s.text ++ (s.ending.map Ending.written).getD []

/-- The segments of a text, where `current` holds the characters of the open line, last first. -/
def segmentsFrom (current : List Char) : List Char → List Segment
  | [] => if current.isEmpty then [] else [⟨current.reverse, none⟩]
  | '\n' :: rest => ⟨current.reverse, some .lf⟩ :: segmentsFrom [] rest
  | '\r' :: '\n' :: rest => ⟨current.reverse, some .crlf⟩ :: segmentsFrom [] rest
  | '\r' :: rest => ⟨current.reverse, some .cr⟩ :: segmentsFrom [] rest
  | c :: rest => segmentsFrom (c :: current) rest

/-- A text cut into its segments. -/
def segments (text : List Char) : List Segment := segmentsFrom [] text

/-- The lines of a text, without their endings. -/
def lines (text : List Char) : List (List Char) := (segments text).map Segment.text

theorem written_segmentsFrom (current text : List Char) :
    (segmentsFrom current text).flatMap Segment.written = current.reverse ++ text := by
  fun_induction segmentsFrom current text with
  | case1 current h =>
    have : current = [] := by simpa using h
    simp [this]
  | case2 current h => simp [Segment.written]
  | case3 current rest ih => simp [Segment.written, Ending.written, ih]
  | case4 current rest ih => simp [Segment.written, Ending.written, ih]
  | case5 current rest _ ih => simp [Segment.written, Ending.written, ih]
  | case6 current c rest _ _ _ ih => simp [ih]

/-- Nothing is lost: the segments written one after the other are the text. -/
theorem written_segments (text : List Char) :
    (segments text).flatMap Segment.written = text := by
  simp [segments, written_segmentsFrom]

theorem length_segmentsFrom_le (current text : List Char) :
    (segmentsFrom current text).length ≤ current.length + text.length := by
  fun_induction segmentsFrom current text with
  | case1 => simp
  | case2 current h => cases current <;> simp_all
  | case3 current rest ih => simp at ih ⊢; omega
  | case4 current rest ih => simp at ih ⊢; omega
  | case5 current rest _ ih => simp at ih ⊢; omega
  | case6 current c rest _ _ _ ih => simp at ih ⊢; omega

/-- A text has no more lines than characters. -/
theorem length_lines_le (text : List Char) : (lines text).length ≤ text.length := by
  simpa [lines, segments] using length_segmentsFrom_le [] text

end IncludeOrder.Text
