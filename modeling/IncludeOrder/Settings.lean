import IncludeOrder.Text.Blank
import IncludeOrder.Text.Search

/-!
# Settings

What counts as a violation is data: the header that must come first, the headers already known to
bring it, how related headers are recognised and which of them are exempt, and the substrings that
mark code in need of it.  `Settings.standard` is what the command runs with.

Settings are checked before they are used.  `Settings.fault?` gives the first rule broken, in a
fixed order, and `Settings.Valid` says that none is.
-/

set_option autoImplicit false

namespace IncludeOrder

/-- The rules of a check. -/
structure Settings where
  /-- the header that must come before all others -/
  designatedHeader : String
  /-- headers known to bring the designated header with them -/
  knownHeaders : List String
  /-- a substring of the paths of related headers -/
  secondaryMarker : String
  /-- related headers that may come first nevertheless -/
  secondaryExempt : List String
  /-- substrings of code that needs the designated header -/
  constructMarkers : List String
  deriving DecidableEq, Repr

namespace Settings

/-- The rules for extension modules. -/
def standard : Settings where
  designatedHeader := "Python.h"
  knownHeaders :=
    ["Python.h", "numpy/arrayobject.h", "numpy/ndarrayobject.h", "numpy/npy_common.h",
     "numpy/npy_math.h", "numpy/random/distributions.h", "pybind11/pybind11.h", "ni_support.h"]
  secondaryMarker := "numpy"
  secondaryExempt := ["numpy/utils.h"]
  constructMarkers := ["py::", "PYBIND11_", "npy_"]

instance : Inhabited Settings := ⟨standard⟩

/-- The five settings. -/
inductive Field where
  | designatedHeader
  | knownHeaders
  | secondaryMarker
  | secondaryExempt
  | constructMarkers
  deriving DecidableEq, Repr, Inhabited

/-- The name of a setting in messages and in written settings. -/
def Field.key : Field → String
  | .designatedHeader => "designated_header"
  | .knownHeaders => "known_headers"
  | .secondaryMarker => "secondary_marker"
  | .secondaryExempt => "secondary_exempt"
  | .constructMarkers => "construct_markers"

/-- A rule that settings can break. -/
inductive Fault where
  /-- the designated header is blank -/
  | blankDesignated
  /-- a known header is blank -/
  | blankKnown
  /-- the designated header is not among the known ones -/
  | unknownDesignated (header : String)
  /-- the marker of related headers is empty and would stand in every path -/
  | emptyMarker
  /-- a construct marker is blank and would stand in every indented line -/
  | blankConstruct
  deriving DecidableEq, Repr, Inhabited

/-- The setting at fault. -/
def Fault.field : Fault → Field
  | .blankDesignated => .designatedHeader
  | .blankKnown => .knownHeaders
  | .unknownDesignated _ => .knownHeaders
  | .emptyMarker => .secondaryMarker
  | .blankConstruct => .constructMarkers

/-- What is wrong with it. -/
def Fault.reason : Fault → String
  | .blankDesignated => "must not be empty"
  | .blankKnown => "header names must not be empty"
  | .unknownDesignated header => "must contain designated header '" ++ header ++ "'"
  | .emptyMarker => "must not be empty"
  | .blankConstruct => "markers must not be blank"

/-- The text is blank. -/
def isBlankString (text : String) : Bool := Text.isBlankText text.toList

/-- The first rule that the settings break. -/
def fault? (s : Settings) : Option Fault :=
  if isBlankString s.designatedHeader then some .blankDesignated
  else if s.knownHeaders.any isBlankString then some .blankKnown
  else if !s.knownHeaders.contains s.designatedHeader then
    some (.unknownDesignated s.designatedHeader)
  else if s.secondaryMarker.isEmpty then some .emptyMarker
  else if s.constructMarkers.any isBlankString then some .blankConstruct
  else none

/-- The settings break no rule. -/
def Valid (s : Settings) : Prop := s.fault? = none

instance (s : Settings) : Decidable s.Valid := inferInstanceAs (Decidable (_ = _))

theorem valid_iff (s : Settings) :
    s.Valid ↔ isBlankString s.designatedHeader = false
      ∧ (∀ header ∈ s.knownHeaders, isBlankString header = false)
      ∧ s.designatedHeader ∈ s.knownHeaders
      ∧ s.secondaryMarker ≠ ""
      ∧ ∀ marker ∈ s.constructMarkers, isBlankString marker = false := by
  have none_blank : ∀ texts : List String,
      (∀ text ∈ texts, isBlankString text = false) ↔ texts.any isBlankString = false := by
    simp [List.any_eq_false]
  have marker : s.secondaryMarker ≠ "" ↔ s.secondaryMarker.isEmpty = false := by simp
  rw [none_blank, none_blank, marker, ← List.contains_iff_mem]
  simp only [Valid, fault?]
  generalize isBlankString s.designatedHeader = blank
  generalize s.knownHeaders.any isBlankString = blankKnown
  generalize s.knownHeaders.contains s.designatedHeader = known
  generalize s.secondaryMarker.isEmpty = emptyMarker
  generalize s.constructMarkers.any isBlankString = blankConstruct
  cases blank <;> cases blankKnown <;> cases known <;> cases emptyMarker <;>
    cases blankConstruct <;> simp

theorem standard_valid : standard.Valid := by decide +kernel

/-- One change to settings. -/
inductive Change where
  | designatedHeader (header : String)
  | knownHeaders (headers : List String)
  /-- one more known header, after the others -/
  | knownHeader (header : String)
  | secondaryMarker (marker : String)
  | secondaryExempt (paths : List String)
  | constructMarkers (markers : List String)
  deriving DecidableEq, Repr, Inhabited

/-- The settings after a change. -/
def apply (s : Settings) : Change → Settings
  | .designatedHeader header => { s with designatedHeader := header }
  | .knownHeaders headers => { s with knownHeaders := headers }
  | .knownHeader header => { s with knownHeaders := s.knownHeaders ++ [header] }
  | .secondaryMarker marker => { s with secondaryMarker := marker }
  | .secondaryExempt paths => { s with secondaryExempt := paths }
  | .constructMarkers markers => { s with constructMarkers := markers }

/-- The standard settings with changes made to them, if they are valid in the end. -/
def build (changes : List Change) : Except Fault Settings :=
  let s := changes.foldl apply standard
  match s.fault? with
  | some fault => .error fault
  | none => .ok s

/-- The path belongs to a related header that must not come first. -/
def isSecondary (s : Settings) (path : String) : Bool :=
  Text.occurs s.secondaryMarker.toList path.toList && !s.secondaryExempt.contains path

/-- Recognised is a path that contains the marker, unless it is one of the exempt ones. -/
theorem isSecondary_iff (s : Settings) (path : String) :
    s.isSecondary path = true
      ↔ s.secondaryMarker.toList <:+: path.toList ∧ path ∉ s.secondaryExempt := by
  rw [isSecondary, Bool.and_eq_true, Text.occurs_eq_true_iff, Bool.not_eq_true',
    ← Bool.not_eq_true, List.contains_iff_mem]

/-- The line holds code that needs the designated header. -/
def marksConstruct (s : Settings) (line : List Char) : Bool :=
  s.constructMarkers.any fun marker => Text.occurs marker.toList line

/-- Recognised is a line that contains one of the markers. -/
theorem marksConstruct_iff (s : Settings) (line : List Char) :
    s.marksConstruct line = true ↔ ∃ marker ∈ s.constructMarkers, marker.toList <:+: line := by
  simp only [marksConstruct, List.any_eq_true, Text.occurs_eq_true_iff]

end Settings

end IncludeOrder
