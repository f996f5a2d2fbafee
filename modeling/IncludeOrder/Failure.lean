import IncludeOrder.Settings

/-!
# Failures

Why a check could not be done, as causes.  A file that is not UTF-8 is the only failure a run goes
on after; a file that cannot be read, or settings that break a rule, end it.
-/

set_option autoImplicit false

namespace IncludeOrder

/-- Why a file could not be read. -/
inductive ReadFault where
  /-- nothing has this name -/
  | missing
  /-- a file stands where a directory is needed -/
  | notDirectory
  /-- a directory stands where a file is needed -/
  | isDirectory
  /-- a name or the path is longer than the file system allows -/
  | nameTooLong
  /-- no path may hold a NUL byte -/
  | nulByte
  /-- any other cause, in the words of the operating system -/
  | other (reason : String)
  deriving DecidableEq, Repr, Inhabited

/-- The operating system's words for a cause. -/
def ReadFault.message : ReadFault → String
  | missing => "No such file or directory (os error 2)"
  | notDirectory => "Not a directory (os error 20)"
  | isDirectory => "Is a directory (os error 21)"
  | nameTooLong => "File name too long (os error 36)"
  | nulByte => "file name contained an unexpected NUL byte"
  | other reason => reason

/-- Why a file or a whole run failed. Paths are held as they are shown. -/
inductive Failure where
  /-- the file is not UTF-8 -/
  | undecodable (path : String)
  /-- the file could not be read -/
  | unreadable (path : String) (cause : ReadFault)
  /-- a setting breaks a rule -/
  | badSetting (field reason : String)
  deriving DecidableEq, Repr, Inhabited

namespace Failure

/-- The failure of settings that break a rule. -/
def ofFault (fault : Settings.Fault) : Failure := .badSetting fault.field.key fault.reason

/-- The message of a failure. -/
def message : Failure → String
  | undecodable path => "file is not valid utf-8: " ++ path
  | unreadable path cause => "io error: " ++ path ++ ": " ++ cause.message
  | badSetting field reason => "config error: " ++ field ++ ": " ++ reason

theorem message_unreadable (path : String) (cause : ReadFault) :
    (unreadable path cause).message = "io error: " ++ path ++ ": " ++ cause.message := rfl

/-- A run leaves the file out and goes on. -/
def isRecoverable : Failure → Bool
  | undecodable _ => true
  | _ => false

end Failure

end IncludeOrder
