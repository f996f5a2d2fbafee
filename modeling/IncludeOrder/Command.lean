import IncludeOrder.Checker
import IncludeOrder.Command.Messages
import IncludeOrder.Console

/-!
# The command

The command checks the files it is given under the standard settings, writes what it finds to the
console, and exits with the number of violations, as far as an exit status can hold it.  Usage and
help aside, only a file that cannot be read gives another status.
-/

set_option autoImplicit false

namespace IncludeOrder.Command

/-- Why the command gave up. -/
inductive Abort where
  /-- the check failed -/
  | check (failure : Failure)
  /-- the log could not be set up -/
  | logging (reason : String)
  deriving DecidableEq, Repr, Inhabited

/-- The message of a command that gave up. -/
def Abort.message : Abort → String
  | .check failure => failure.message
  | .logging reason => "logging setup failed: " ++ reason

/-- The exit status of a command that gave up. -/
def Abort.exitStatus : Abort → Nat
  | .check (.badSetting ..) => 2
  | .check (.unreadable ..) => 10
  | .check (.undecodable ..) => 1
  | .logging _ => 1

/-- Whether a run could have gone on; not a question for a log. -/
def Abort.isRecoverable? : Abort → Option Bool
  | .check failure => some failure.isRecoverable
  | .logging _ => none

/-- Checks files under the standard settings and presents the findings on a console. -/
def check (read : FileReader) (files : List Path) (console : Console) :
    Except Abort Summary × Console :=
  match Checker.start .standard with
  | .error fault => (.error (.check (.ofFault fault)), console)
  | .ok checker =>
    let report := (checker.checkFiles read files).1
    let console := console.presentAll report.findings
    match report.result with
    | .ok summary => (.ok summary, console)
    | .error failure => (.error (.check failure), console)

/-- How the command ends. -/
structure Outcome where
  status : Nat
  console : Console
  deriving DecidableEq, Repr, Inhabited

/-- Checks files and ends with the status of the result. A failure is the last line on the stream
for errors. -/
def runCheck (read : FileReader) (files : List Path) (console : Console) : Outcome :=
  match check read files console with
  | (.ok summary, console) => ⟨summary.exitStatus, console⟩
  | (.error abort, console) =>
    ⟨abort.exitStatus, console.writeLine .err ("error: " ++ abort.message)⟩

/-- Does what the arguments ask for. -/
def run (read : FileReader) (arguments : List (List UInt8)) (console : Console) : Outcome :=
  match readArguments arguments with
  | .ok (.help form) => ⟨0, console.write .out form.text⟩
  | .error fault => ⟨2, console.write .err fault.text⟩
  | .ok (.check files) => runCheck read files console

end IncludeOrder.Command
