import IncludeOrder.Addition
import IncludeOrder.Comment
import IncludeOrder.Directive
import IncludeOrder.Finding
import IncludeOrder.Metrics
import IncludeOrder.Path
import IncludeOrder.Registry
import IncludeOrder.Settings
import IncludeOrder.Text.Line

/-!
# Scanning one file

A scan reads the lines of one file from top to bottom.  It is a fold: a state, and a function that
takes the state over one numbered line.  The file is confirmed at the first directive that names a
registered header; from then on nothing is found in it any more.  At that moment the file's own
base name is registered, so that a later directive, in this file or in another one, may name it.

A scan is a function of the settings, the registry, the label of the file and its text.  It says
what happened as a list of events in order; the findings and the announcements for the metrics are
both read off that list.
-/

set_option autoImplicit false

namespace IncludeOrder

namespace Scan

/-- Something that happens during a scan. -/
inductive Event where
  /-- there is something to say about the file -/
  | found (finding : Finding)
  /-- a new name has been registered, and the registry has this size now -/
  | registered (size : Nat)
  deriving DecidableEq, Repr, Inhabited

/-- The finding of an event. -/
def Event.finding? : Event → Option Finding
  | .found finding => some finding
  | .registered _ => none

/-- What a line is to a scan. -/
inductive LineKind where
  /-- a line touched by a block comment -/
  | comment
  /-- a directive and the header path it names -/
  | directive (header : String)
  /-- any other line -/
  | code
  deriving DecidableEq, Repr, Inhabited

/-- What the line is when it starts in this mode. -/
def LineKind.of (mode : Comment.Mode) (line : List Char) : LineKind :=
  if mode.skips line then .comment
  else match Directive.headerPath? line with
    | some header => .directive (String.ofList header)
    | none => .code

/-- A scan between two lines. -/
structure State where
  registry : Registry
  /-- the comment mode in which the next line starts -/
  mode : Comment.Mode
  /-- a directive has named a registered header -/
  confirmed : Bool
  /-- the lines of the other headers before that directive, ascending -/
  others : List Nat
  /-- code in need of the designated header has been found -/
  warned : Bool
  /-- what has happened so far -/
  events : List Event
  deriving DecidableEq, Inhabited

namespace State

/-- The scan of a file before its first line. -/
def start (registry : Registry) : State := ⟨registry, .code, false, [], false, []⟩

/-- One more event. -/
def log (st : State) (event : Event) : State := { st with events := st.events ++ [event] }

/-- Registers the scanned file, which is an event the first time. -/
def register (st : State) (label : Label) : State :=
  match st.registry.register label.baseName with
  | (true, registry) => { st with registry }.log (.registered registry.size)
  | (false, registry) => { st with registry }

/-- A directive names a registered header. The lines of other headers before it are found out of
order if this is the first such directive. -/
def confirm (s : Settings) (label : Label) (line : Nat) (st : State) : State :=
  let st := if st.confirmed || st.others.isEmpty then st
    else st.log (.found (.outOfOrder label.display s.designatedHeader line st.others))
  { st with confirmed := true }.register label

/-- A directive on line `line` names a header. -/
def seeHeader (s : Settings) (label : Label) (line : Nat) (header : String) (st : State) : State :=
  if st.registry.contains header then st.confirm s label line
  else if st.confirmed then st
  else if s.isSecondary header then
    st.log (.found (.secondaryFirst label.display s.designatedHeader header line))
  else { st with others := st.others ++ [line] }

/-- Line `line` is code. The first line that needs the designated header is found, except in a
confirmed file and in a header. -/
def seeCode (s : Settings) (label : Label) (line : Nat) (text : List Char) (st : State) : State :=
  if st.confirmed || st.warned || label.namesHeader then st
  else if s.marksConstruct text then
    { st with warned := true }.log (.found (.constructFirst label.display line))
  else st

/-- Takes the state over a line and its number. -/
def seeLine (s : Settings) (label : Label) (st : State) (numbered : List Char × Nat) : State :=
  let (text, line) := numbered
  let seen := match LineKind.of st.mode text with
    | .comment => st
    | .directive header => st.seeHeader s label line header
    | .code => st.seeCode s label line text
  { seen with mode := st.mode.next text }

/-- How many headers are out of order; none as long as the file is not confirmed. -/
def violations (st : State) : Nat := if st.confirmed then st.others.length else 0

/-- The findings so far, in order. -/
def findings (st : State) : List Finding := st.events.filterMap Event.finding?

end State

/-- Takes the state over the line at an index, whose number is one more. -/
def State.seeIndexed {m : Type → Type} [Monad m] (add : Addition m) (s : Settings) (label : Label)
    (st : State) (indexed : List Char × Nat) : m State := do
  let line ← add indexed.2 1
  return st.seeLine s label (indexed.1, line)

/-- The state after all lines of a text, which `add` numbers. -/
def runWith {m : Type → Type} [Monad m] (add : Addition m) (s : Settings) (registry : Registry)
    (label : Label) (text : List Char) : m State :=
  (Text.lines text).zipIdx.foldlM (State.seeIndexed add s label) (.start registry)

/-- The state after all lines of a text. -/
def run (s : Settings) (registry : Registry) (label : Label) (text : List Char) : State :=
  (runWith .exactly s registry label text).run

/-- The lines are numbered from 1. -/
theorem run_eq_foldl (s : Settings) (registry : Registry) (label : Label) (text : List Char) :
    run s registry label text
      = ((Text.lines text).zipIdx 1).foldl (State.seeLine s label) (.start registry) := by
  rw [run, runWith, List.idRun_foldlM, List.zipIdx_succ, List.foldl_map]
  rfl

end Scan

/-- The metrics after an event of a scan. -/
def Metrics.record (m : Metrics) : Scan.Event → Metrics
  | .found finding => m.countFinding finding.kind
  | .registered size => m.announceSize size

end IncludeOrder
