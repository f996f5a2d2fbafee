import IncludeOrder.HeaderPath
import IncludeOrder.Text.Blank

/-!
# Include directives

A line is a directive when, blanks aside, it reads number sign, `include`, an opening delimiter, a
header path, a closing delimiter, and nothing more.  Either opening delimiter goes with either
closing one.  A directive followed by anything else, a comment for instance, is an ordinary line.

No header path holds a closing delimiter, so the first one after the opening delimiter ends the
path and no choice is left: `headerPath?` reads the line once, from left to right.
-/

set_option autoImplicit false

namespace IncludeOrder.Directive

open Text

/-- The word after the number sign. -/
def keyword : List Char := ['i', 'n', 'c', 'l', 'u', 'd', 'e']

/-- The delimiters before a path. -/
def isOpening (c : Char) : Bool := c == '<' || c == '"'

/-- The delimiters after a path. -/
def isClosing (c : Char) : Bool := c == '>' || c == '"'

/-- What follows `word` in a text that starts, blanks aside, with it. -/
def after? (word text : List Char) : Option (List Char) := word.isPrefixOf? (dropBlanks text)

/-- The path up to the first closing delimiter, if it is a header path and only blanks follow. -/
def delimited? (text : List Char) : Option (List Char) :=
  let path := text.takeWhile fun c => !isClosing c
  match text.dropWhile fun c => !isClosing c with
  | _ :: rest => if isHeaderPath path && isBlankText rest then some path else none
  | [] => none

/-- The header path a directive names; `none` for every line that is no directive. -/
def headerPath? (line : List Char) : Option (List Char) :=
  match (after? ['#'] line).bind (after? keyword) with
  | some rest =>
    match dropBlanks rest with
    | c :: rest => if isOpening c then delimited? rest else none
    | [] => none
  | none => none

/-- Only header paths are ever named. -/
theorem headerPath_of_headerPath? {line path : List Char} (h : headerPath? line = some path) :
    HeaderPath path := by
  unfold headerPath? at h
  split at h
  · split at h
    · split at h
      · unfold delimited? at h
        dsimp only at h
        split at h
        · split at h
          · rename_i both
            cases h
            simp only [Bool.and_eq_true] at both
            exact (isHeaderPath_eq_true_iff _).1 both.1
          · cases h
        · cases h
      · cases h
    · cases h
  · cases h

end IncludeOrder.Directive
