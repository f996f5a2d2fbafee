/-!
# Findings

What a check has to say about a file, as data: each constructor holds exactly what its message is
made from, and the message, the kind and the stream follow from the finding alone.
-/

set_option autoImplicit false

namespace IncludeOrder

/-- Something found in a file. Line numbers start at 1. -/
inductive Finding where
  /-- other headers, on the lines `others`, come before the designated header, on line `line` -/
  | outOfOrder (path designatedHeader : String) (line : Nat) (others : List Nat)
  /-- a related header comes before the designated header -/
  | secondaryFirst (path designatedHeader header : String) (line : Nat)
  /-- code in need of the designated header comes before it -/
  | constructFirst (path : String) (line : Nat)
  /-- the file is not UTF-8 and has been left out -/
  | notUtf8 (path : String)
  deriving DecidableEq, Repr, Inhabited

/-- The kinds of findings. -/
inductive FindingKind where
  | outOfOrder
  | secondaryFirst
  | constructFirst
  | notUtf8
  deriving DecidableEq, Repr, Inhabited

/-- The name of a kind in the metrics. -/
def FindingKind.name : FindingKind → String
  | .outOfOrder => "out_of_order"
  | .secondaryFirst => "secondary_before_designated"
  | .constructFirst => "construct_before_header"
  | .notUtf8 => "not_utf8"

/-- The streams of a console. -/
inductive Channel where
  | out
  | err
  deriving DecidableEq, Repr, Inhabited

/-- The name of a stream. -/
def Channel.name : Channel → String
  | .out => "stdout"
  | .err => "stderr"

namespace Finding

/-- The kind of a finding. -/
def kind : Finding → FindingKind
  | outOfOrder .. => .outOfOrder
  | secondaryFirst .. => .secondaryFirst
  | constructFirst .. => .constructFirst
  | notUtf8 .. => .notUtf8

/-- The path of the file, as shown. -/
def path : Finding → String
  | outOfOrder path .. => path
  | secondaryFirst path .. => path
  | constructFirst path .. => path
  | notUtf8 path => path

/-- The stream a finding is written to: a file left out is a remark, all else is a complaint. -/
def channel : Finding → Channel
  | notUtf8 .. => .out
  | _ => .err

/-- Line numbers in brackets, separated by a comma and a space. -/
def lineList (lines : List Nat) : String :=
  "[" ++ ", ".intercalate (lines.map fun line => line.repr) ++ "]"

/-- The message of a finding, of one line or two. A related header is never named in it: the
second line is the same for all of them. -/
def message : Finding → String
  | outOfOrder path designated line others =>
    "Header before " ++ designated ++ " in file " ++ path ++ "\n" ++ designated ++ " on line "
      ++ line.repr ++ ", other header(s) on line(s) " ++ lineList others
  | secondaryFirst path designated _ line =>
    designated ++ " not included before python-including header in file " ++ path
      ++ "\npybind11/pybind11.h on line " ++ line.repr
  | constructFirst path line =>
    "Python-including header not used before python constructs in file " ++ path
      ++ "\nConstruct on line " ++ line.repr
  | notUtf8 path => "File " ++ path ++ " not utf-8"

theorem message_notUtf8 (path : String) :
    (notUtf8 path).message = "File " ++ path ++ " not utf-8" := rfl

theorem channel_eq_out_iff (f : Finding) : f.channel = .out ↔ f.kind = .notUtf8 := by
  cases f <;> simp [channel, kind]

end Finding

end IncludeOrder
