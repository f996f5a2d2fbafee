/-!
# JSON: defects, white space and words

JSON is read in one pass from the left, and the first defect met decides: nothing after it is looked
at.  A step takes the text that is left and gives a result with the text that is left then.  Every
step that reads something leaves a shorter text (`Shortens`), which is what the loops of the other
modules end by.
-/

set_option autoImplicit false

namespace IncludeOrder.Json

/-- Why a text was refused. -/
inductive Defect where
  /-- the text is no JSON -/
  | malformed
  /-- the text may be JSON so far, but does not describe what was asked for -/
  | mismatched
  /-- the text ends too early -/
  | truncated
  deriving DecidableEq, Repr, Inhabited

/-- Reads the beginning of a text. -/
abbrev Step (α : Type) : Type := List Char → Except Defect (α × List Char)

/-- Whatever the step reads, less of the text is left. -/
def Shortens {α : Type} (step : Step α) : Prop :=
  ∀ text value rest, step text = .ok (value, rest) → rest.length < text.length

/-- The four characters that may stand between tokens. -/
def isSpace (c : Char) : Bool := c == ' ' || c == '\n' || c == '\t' || c == '\r'

/-- The text from the next token. -/
def dropSpace (text : List Char) : List Char := text.dropWhile isSpace

theorem length_dropSpace_le (text : List Char) : (dropSpace text).length ≤ text.length :=
  (List.dropWhile_sublist isSpace).length_le

theorem length_lt_of_dropSpace_eq_cons {text rest : List Char} {c : Char}
    (h : dropSpace text = c :: rest) : rest.length < text.length := by
  have := length_dropSpace_le text
  rw [h, List.length_cons] at this
  omega

@[simp] theorem dropSpace_cons_of_not_space {c : Char} (h : isSpace c = false)
    (rest : List Char) : dropSpace (c :: rest) = c :: rest := by
  simp [dropSpace, h]

/-- Reads the rest of a word such as `null`, of which the first letter has been read. -/
def readWord : List Char → Step Unit
  | [], text => .ok ((), text)
  | _ :: _, [] => .error .truncated
  | letter :: letters, c :: rest =>
    if c = letter then readWord letters rest else .error .malformed

theorem length_le_of_readWord {word text rest : List Char} {u : Unit}
    (h : readWord word text = .ok (u, rest)) : rest.length ≤ text.length := by
  induction word generalizing text with
  | nil => cases h; exact Nat.le_refl _
  | cons letter letters ih =>
    cases text with
    | nil => cases h
    | cons c text =>
      simp only [readWord] at h
      split at h
      · have := ih h
        simp only [List.length_cons]
        omega
      · cases h

/-- Reads a single character, after white space. -/
def readMark (mark : Char) : Step Unit := fun text =>
  match dropSpace text with
  | [] => .error .truncated
  | c :: rest => if c = mark then .ok ((), rest) else .error .malformed

theorem shortens_readMark (mark : Char) : Shortens (readMark mark) := by
  intro text value rest h
  unfold readMark at h
  split at h
  · cases h
  · rename_i c tail e
    split at h
    · cases h
      exact length_lt_of_dropSpace_eq_cons e
    · cases h

end IncludeOrder.Json
