import IncludeOrder.Checker

/-!
# File trees

A tree of files and directories held in memory, and the rules by which a path is looked up in it.
A path is followed part by part: every part but the last must lead to a directory, a single dot
stays where it is, two dots lead upwards, and nothing is looked up inside a file, not even a dot.
Names are compared byte by byte.

The tree is the working directory and no more.  What lies above or beside it can be walked through
with dots, and everything else there is missing.
-/

set_option autoImplicit false

namespace IncludeOrder

/-- The name of a file or directory inside its directory. -/
abbrev EntryName := List UInt8

/-- What a name stands for. -/
inductive Entry where
  | file (bytes : List UInt8)
  | directory
  deriving DecidableEq, Repr, Inhabited

/-- Entries by the names that lead to them from the root, the newest first. The directories above
an entry exist with it. -/
structure FileTree where
  entries : List (List EntryName × Entry)
  deriving DecidableEq, Repr, Inhabited

/-- Where a walk through a tree has come to. -/
inductive Place where
  /-- the entry with these names, in the tree -/
  | within (names : List EntryName)
  /-- a directory outside the tree -/
  | outside
  deriving DecidableEq, Repr, Inhabited

namespace FileTree

/-- Only the root, an empty directory. -/
def empty : FileTree := ⟨[]⟩

/-- The longest name an entry may have. -/
def maxNameLength : Nat := 255

/-- The longest path that is looked up. -/
def maxPathLength : Nat := 4095

/-- The names a path leads through from the root, its dots followed. -/
def names (p : Path) : List EntryName :=
  p.parts.foldl (fun names part =>
    if part = [] ∨ part = Path.dot then names
    else if part = Path.dotDot then names.dropLast
    else names ++ [part]) []

/-- The tree with an entry put at a path. -/
def put (t : FileTree) (p : Path) (entry : Entry) : FileTree :=
  ⟨(names p, entry) :: t.entries⟩

/-- What stands at these names. A beginning of an entry's names is a directory. -/
def entry? (t : FileTree) (location : List EntryName) : Option Entry :=
  match t.entries.find? fun entry => entry.1 = location with
  | some entry => some entry.2
  | none => if location = [] ∨ t.entries.any (fun entry => location.isPrefixOf entry.1) then
      some .directory
    else none

/-- Follows one part of a path. -/
def follow (t : FileTree) (place : Place) (part : EntryName) : Except ReadFault Place :=
  match place with
  | .outside =>
    if part = [] ∨ part = Path.dot ∨ part = Path.dotDot then .ok .outside
    else if maxNameLength < part.length then .error .nameTooLong
    else .error .missing
  | .within here =>
    match t.entry? here with
    | some .directory =>
      if part = [] ∨ part = Path.dot then .ok (.within here)
      else if part = Path.dotDot then
        if here = [] then .ok .outside else .ok (.within here.dropLast)
      else if maxNameLength < part.length then .error .nameTooLong
      else match t.entry? (here ++ [part]) with
        | some _ => .ok (.within (here ++ [part]))
        | none => .error .missing
    | _ => .error .notDirectory

/-- Follows the parts of a path in order. -/
def walk (t : FileTree) (place : Place) : List EntryName → Except ReadFault Place
  | [] => .ok place
  | part :: rest =>
    match t.follow place part with
    | .ok next => t.walk next rest
    | .error fault => .error fault

/-- Where a path leads from the root of the tree; an absolute path starts outside. -/
def locate (t : FileTree) (p : Path) : Except ReadFault Place :=
  if p.bytes.contains 0 then .error .nulByte
  else if p.bytes = [] then .error .missing
  else if maxPathLength < p.bytes.length then .error .nameTooLong
  else t.walk (if p.bytes.head? = some 0x2F then .outside else .within []) p.parts

/-- The content of the file at a path. -/
def read (t : FileTree) (p : Path) : Except ReadFault (List UInt8) :=
  match t.locate p with
  | .error fault => .error fault
  | .ok .outside => .error .isDirectory
  | .ok (.within here) =>
    match t.entry? here with
    | some (.file bytes) => .ok bytes
    | some .directory => .error .isDirectory
    | none => .error .missing

end FileTree

end IncludeOrder
