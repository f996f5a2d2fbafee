import IncludeOrder.Command

/-!
# The program

Reads the files that the arguments name, lets `Command.run` do the rest, and writes the two
streams.  Everything that is decided is decided by `Command.run`.
-/

set_option autoImplicit false

namespace IncludeOrder.Program

/-- A system error as a cause of a read that failed. -/
def readFault (code : UInt32) (details : String) : ReadFault :=
  if code = 2 then .missing
  else if code = 20 then .notDirectory
  else if code = 21 then .isDirectory
  else if code = 36 then .nameTooLong
  else .other (details ++ " (os error " ++ code.toNat.repr ++ ")")

/-- The cause of an error of the runtime. -/
def readFaultOf : IO.Error → ReadFault
  | .alreadyExists _ code details => readFault code details
  | .otherError code details => readFault code details
  | .resourceBusy code details => readFault code details
  | .resourceVanished code details => readFault code details
  | .unsupportedOperation code details => readFault code details
  | .hardwareFault code details => readFault code details
  | .unsatisfiedConstraints code details => readFault code details
  | .illegalOperation code details => readFault code details
  | .protocolError code details => readFault code details
  | .timeExpired code details => readFault code details
  | .interrupted _ code details => readFault code details
  | .noFileOrDirectory _ code details => readFault code details
  | .invalidArgument _ code details => readFault code details
  | .permissionDenied _ code details => readFault code details
  | .resourceExhausted _ code details => readFault code details
  | .inappropriateType _ code details => readFault code details
  | .noSuchThing _ code details => readFault code details
  | .unexpectedEof => .other "unexpected end of file"
  | .userError message => .other message

/-- Reads a file. -/
def readFile (path : Path) : IO (Except ReadFault (List UInt8)) := do
  if path.bytes.contains 0 then
    return .error .nulByte
  try
    let handle ← IO.FS.Handle.mk path.display .read
    return .ok (← handle.readBinToEnd).toList
  catch error => return .error (readFaultOf error)

/-- Reads the files that the arguments ask to check, each once. -/
def readFiles (arguments : List (List UInt8)) :
    IO (List (Path × Except ReadFault (List UInt8))) := do
  match Command.readArguments arguments with
  | .ok (.check files) => files.eraseDups.mapM fun path => return (path, ← readFile path)
  | _ => return []

end IncludeOrder.Program

open IncludeOrder in
/-- The command on the real file system and the real streams. -/
def main (arguments : List String) : IO UInt32 := do
  let arguments := arguments.map fun argument => argument.toUTF8.toList
  let contents ← Program.readFiles arguments
  let read : FileReader := fun path => (contents.lookup path).getD (.error .missing)
  let outcome := Command.run read arguments .fresh
  (← IO.getStdout).putStr outcome.console.out.written
  (← IO.getStderr).putStr outcome.console.err.written
  return outcome.status.toUInt32
