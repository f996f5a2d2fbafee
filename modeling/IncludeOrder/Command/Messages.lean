import IncludeOrder.Command.Arguments
import IncludeOrder.Text.Terminal

/-!
# What the command says about itself

The two help texts, and the text of each objection to the arguments.  An objection quotes what it
objects to, of which it shows what is safe to show on a terminal.
-/

set_option autoImplicit false

namespace IncludeOrder.Command

/-- How the command is called. -/
def usage : String := "Usage: pyfirst <FILE>..."

/-- How the command is called when help has been asked for. -/
def usageWithHelp : String := "Usage: pyfirst --help <FILE>..."

/-- Where to find more. -/
def moreInformation : String := "For more information, try '--help'."

/-- The help texts. -/
def HelpForm.text : HelpForm → String
  | .short =>
    "Check that Python.h is included before any other header\n\n" ++ usage
      ++ "\n\nArguments:\n  <FILE>...  C/C++ source and header files to check\n\n"
      ++ "Options:\n  -h, --help  Print help (see more with '--help')\n"
  | .long =>
    "Check that Python.h is included before any other header.\n\n"
      ++ "Exits with the total number of header lines found before Python.h, "
      ++ "summed over all files and capped at 255 (0 when clean).\n\n" ++ usage
      ++ "\n\nArguments:\n  <FILE>...\n          C/C++ source and header files to check\n\n"
      ++ "Options:\n  -h, --help\n          Print help (see a summary with '-h')\n"

/-- The paragraphs of an objection. -/
def UsageFault.paragraphs : UsageFault → List String
  | .noFiles =>
    ["the following required arguments were not provided:\n  <FILE>...", usage, moreInformation]
  | .emptyFile => ["a value is required for '<FILE>...' but none was supplied", moreInformation]
  | .unknownOption shown =>
    let quoted := Terminal.visible shown
    ["unexpected argument '" ++ quoted ++ "' found",
      "  tip: to pass '" ++ quoted ++ "' as a value, use '-- " ++ quoted ++ "'", usage,
      moreInformation]
  | .misspelledHelp shown =>
    let quoted := Terminal.visible shown
    ["unexpected argument '" ++ quoted ++ "' found",
      "  tip: a similar argument exists: '--help'", usageWithHelp, moreInformation]
  | .helpWithValue value =>
    let quoted := Terminal.visible value
    ["unexpected value '" ++ quoted ++ "' for '--help' found; no more were expected",
      usageWithHelp, moreInformation]

/-- The text of an objection, its paragraphs separated by empty lines. -/
def UsageFault.text (fault : UsageFault) : String :=
  "error: " ++ "\n\n".intercalate fault.paragraphs ++ "\n"

end IncludeOrder.Command
