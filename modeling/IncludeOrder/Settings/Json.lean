import IncludeOrder.Json.Skip
import IncludeOrder.Json.Texts
import IncludeOrder.Settings

/-!
# Settings as JSON

Settings are written as an object of five members, in a fixed order and without white space.  They
are read more freely: from an object whose members stand in any order, members of other names being
passed over, or from an array of the five values in the order they are written.  No member may be
left out or occur twice.  What is read need not be valid settings.

The first defect from the left is the one reported.  That a member is missing is noticed when the
object closes, and that one is repeated as soon as its name has been read.
-/

set_option autoImplicit false

namespace IncludeOrder.Settings

open Json

/-- The settings in the order they are written. -/
def Field.all : List Field :=
  [.designatedHeader, .knownHeaders, .secondaryMarker, .secondaryExempt, .constructMarkers]

/-- The setting of a name. -/
def Field.named? (name : String) : Option Field := Field.all.find? fun field => field.key = name

/-! ## Writing -/

/-- The value of a setting. -/
def writeField (s : Settings) : Field → List Char
  | .designatedHeader => writeLiteral s.designatedHeader
  | .knownHeaders => writeTexts s.knownHeaders
  | .secondaryMarker => writeLiteral s.secondaryMarker
  | .secondaryExempt => writeTexts s.secondaryExempt
  | .constructMarkers => writeTexts s.constructMarkers

/-- The name of a setting, a colon, and its value. -/
def writeMember (s : Settings) (field : Field) : List Char :=
  writeLiteral field.key ++ ':' :: s.writeField field

/-- The settings as an object. -/
def write (s : Settings) : List Char :=
  '\x7b' :: ([','].intercalate (Field.all.map s.writeMember) ++ ['\x7d'])

/-! ## Reading -/

/-- The settings read so far. -/
structure Draft where
  designatedHeader : Option String
  knownHeaders : Option (List String)
  secondaryMarker : Option String
  secondaryExempt : Option (List String)
  constructMarkers : Option (List String)
  deriving DecidableEq, Repr, Inhabited

/-- Nothing has been read. -/
def Draft.blank : Draft := ⟨none, none, none, none, none⟩

/-- The setting has been read. -/
def Draft.has (d : Draft) : Field → Bool
  | .designatedHeader => d.designatedHeader.isSome
  | .knownHeaders => d.knownHeaders.isSome
  | .secondaryMarker => d.secondaryMarker.isSome
  | .secondaryExempt => d.secondaryExempt.isSome
  | .constructMarkers => d.constructMarkers.isSome

/-- The settings, if all have been read. -/
def Draft.complete? (d : Draft) : Option Settings :=
  match d with
  | ⟨some designatedHeader, some knownHeaders, some secondaryMarker, some secondaryExempt,
      some constructMarkers⟩ =>
    some { designatedHeader, knownHeaders, secondaryMarker, secondaryExempt, constructMarkers }
  | _ => none

/-- Reads the value of a setting. -/
def readField (d : Draft) : Field → Step Draft
  | .designatedHeader => mapStep (fun text => { d with designatedHeader := some text }) readText
  | .knownHeaders => mapStep (fun texts => { d with knownHeaders := some texts }) readTexts
  | .secondaryMarker => mapStep (fun text => { d with secondaryMarker := some text }) readText
  | .secondaryExempt => mapStep (fun texts => { d with secondaryExempt := some texts }) readTexts
  | .constructMarkers => mapStep (fun texts => { d with constructMarkers := some texts }) readTexts

theorem shortens_readField (d : Draft) (field : Field) : Shortens (readField d field) := by
  cases field
  · exact shortens_mapStep _ shortens_readText
  · exact shortens_mapStep _ shortens_readTexts
  · exact shortens_mapStep _ shortens_readText
  · exact shortens_mapStep _ shortens_readTexts
  · exact shortens_mapStep _ shortens_readTexts

/-- Reads the value of a member whose name has been read. -/
def readValue (d : Draft) (name : String) : Step Draft := fun text =>
  match Field.named? name with
  | some field =>
    if d.has field then .error .mismatched
    else match readMark ':' text with
      | .ok (_, rest) => readField d field rest
      | .error defect => .error defect
  | none =>
    match readMark ':' text with
    | .ok (_, rest) => mapStep (fun _ => d) skipValue rest
    | .error defect => .error defect

/-- Reads a member. -/
def readMember (d : Draft) : Step Draft := fun text =>
  match text with
  | [] => .error .truncated
  | c :: rest =>
    if c = '"' then
      match readLiteral rest with
      | .ok (name, rest) => readValue d name rest
      | .error defect => .error defect
    else .error .malformed

theorem shortens_readValue (d : Draft) (name : String) : Shortens (readValue d name) := by
  intro text value rest h
  unfold readValue at h
  split at h
  · split at h
    · cases h
    · split at h
      · rename_i e
        exact Nat.lt_trans (shortens_readField _ _ _ _ _ h) (shortens_readMark _ _ _ _ e)
      · cases h
  · split at h
    · rename_i e
      exact Nat.lt_trans (shortens_mapStep _ shortens_skipValue _ _ _ h)
        (shortens_readMark _ _ _ _ e)
    · cases h

theorem shortens_readMember (d : Draft) : Shortens (readMember d) := by
  intro text value rest h
  unfold readMember at h
  split at h
  · cases h
  · split at h
    · split at h
      · rename_i e
        have := shortens_readLiteral _ _ _ e
        have := shortens_readValue _ _ _ _ _ h
        simp only [List.length_cons]
        omega
      · cases h
    · cases h

/-- Reads the members of an object after its opening bracket. -/
def readMembersFrom (first : Bool) (d : Draft) (text : List Char) :
    Except Defect (Settings × List Char) :=
  match h : nextItem '\x7d' first text with
  | .ok (false, rest) =>
    match d.complete? with
    | some s => .ok (s, rest)
    | none => .error .mismatched
  | .ok (true, start) =>
    match h' : readMember d start with
    | .ok (d, rest) =>
      have : rest.length < text.length :=
        Nat.lt_of_lt_of_le (shortens_readMember _ _ _ _ h') (length_le_of_nextItem h)
      readMembersFrom false d rest
    | .error defect => .error defect
  | .error defect => .error defect
termination_by text.length

/-- Reads the values of the settings `fields` from an array, and then its closing bracket. -/
def readOrdered (first : Bool) (d : Draft) : List Field → Step Settings
  | [], text =>
    match readMark ']' text with
    | .ok (_, rest) =>
      match d.complete? with
      | some s => .ok (s, rest)
      | none => .error .mismatched
    | .error defect => .error defect
  | field :: fields, text =>
    match nextItem ']' first text with
    | .ok (true, start) =>
      match readField d field start with
      | .ok (d, rest) => readOrdered false d fields rest
      | .error defect => .error defect
    | .ok (false, _) => .error .mismatched
    | .error defect => .error defect

/-- Reads settings from the beginning of a text. -/
def readSettings : Step Settings := fun text =>
  match dropSpace text with
  | [] => .error .truncated
  | c :: rest =>
    if c = '\x7b' then readMembersFrom true .blank rest
    else if c = '[' then readOrdered true .blank Field.all rest
    else .error (wrongValue (c :: rest))

/-- The settings that a text describes. Only white space may follow them. -/
def read (text : List Char) : Except Defect Settings :=
  match readSettings text with
  | .ok (s, rest) => if (dropSpace rest).isEmpty then .ok s else .error .malformed
  | .error defect => .error defect

end IncludeOrder.Settings
