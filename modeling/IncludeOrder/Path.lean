import IncludeOrder.Text.Search
import IncludeOrder.Text.Utf8

/-!
# Paths

A path is the bytes its user typed; it need not be UTF-8.  Two texts are derived from it, both by
lossy decoding: what is shown in messages, which is the whole path as given, and the base name,
which is what other files are registered and recognised by.  A scan sees a path through these two
texts only (`Path.label`).
-/

set_option autoImplicit false

namespace IncludeOrder

/-- A path as given. -/
structure Path where
  bytes : List UInt8
  deriving DecidableEq, Repr, Inhabited

namespace Path

/-- A path typed as text. -/
def ofString (text : String) : Path := ⟨text.toUTF8.toList⟩

/-- Cuts bytes at every slash; there is one part more than there are slashes. -/
def cutSlashes : List UInt8 → List (List UInt8)
  | [] => [[]]
  | b :: rest =>
    if b = 0x2F then [] :: cutSlashes rest
    else match cutSlashes rest with
      | part :: parts => (b :: part) :: parts
      | [] => [[b]]

/-- The parts between slashes, empty ones included. -/
def parts (p : Path) : List (List UInt8) := cutSlashes p.bytes

/-- A single dot: the directory itself. -/
def dot : List UInt8 := [0x2E]

/-- Two dots: the directory above. -/
def dotDot : List UInt8 := [0x2E, 0x2E]

/-- The last part that names something; none for a path without such a part and for one whose
last such part leads upwards. -/
def fileName? (p : Path) : Option (List UInt8) :=
  match (p.parts.filter fun part => part ≠ [] ∧ part ≠ dot).getLast? with
  | some part => if part = dotDot then none else some part
  | none => none

/-- The path as messages show it. -/
def display (p : Path) : String := Utf8.decodeLossy p.bytes

/-- The name of the file without its directories, empty when there is none. -/
def baseName (p : Path) : String := (p.fileName?.map Utf8.decodeLossy).getD ""

/-- Headers are told apart from sources before anything is read, by a letter h anywhere in the
path. -/
def isProbableHeader (p : Path) : Bool :=
  p.display.toList.contains 'h' || p.display.toList.contains 'H'

theorem cutSlashes_ne_nil (bytes : List UInt8) : cutSlashes bytes ≠ [] := by
  unfold cutSlashes
  repeat' split
  all_goals simp

/-- Nothing but the slashes is taken away. -/
theorem intercalate_cutSlashes (bytes : List UInt8) :
    [0x2F].intercalate (cutSlashes bytes) = bytes := by
  induction bytes with
  | nil => rfl
  | cons b rest ih =>
    cases h : cutSlashes rest with
    | nil => exact absurd h (cutSlashes_ne_nil rest)
    | cons part parts =>
      rw [h] at ih
      by_cases hb : b = 0x2F
      · simpa [cutSlashes, hb, h] using ih
      · cases parts <;> simp_all [cutSlashes]

end Path

/-- What a scan knows of the path of its file. -/
structure Label where
  /-- the path as messages show it -/
  display : String
  /-- the name the file is registered under -/
  baseName : String
  deriving DecidableEq, Repr, Inhabited

/-- The two texts derived from a path. -/
def Path.label (p : Path) : Label := ⟨p.display, p.baseName⟩

/-- The base name marks the file itself as a header, so that it may use constructs whose header
its includer has to bring. -/
def Label.namesHeader (label : Label) : Bool := Text.occurs ['.', 'h'] label.baseName.toList

theorem Label.namesHeader_iff (label : Label) :
    label.namesHeader = true ↔ ['.', 'h'] <:+: label.baseName.toList :=
  Text.occurs_eq_true_iff _ _

end IncludeOrder
