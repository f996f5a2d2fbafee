import IncludeOrder.Command.Similarity
import IncludeOrder.Path

/-!
# Command line arguments

The command takes one or more files and one option, which asks for help.  Arguments are read from
left to right.  The first that asks for help, or that is no argument of this command, settles the
matter.  Two dashes end the options; every argument after them is a file, and so is a single dash.

An empty argument is no file.  It is objected to when the files are taken together, which happens
when help is asked for or the arguments end, so an unknown option after it is objected to instead.
-/

set_option autoImplicit false

namespace IncludeOrder.Command

/-- How much help is asked for. -/
inductive HelpForm where
  | short
  | long
  deriving DecidableEq, Repr, Inhabited

/-- What is wrong with the arguments. -/
inductive UsageFault where
  /-- no file is given -/
  | noFiles
  /-- an empty argument is given for a file -/
  | emptyFile
  /-- there is no such option, as shown -/
  | unknownOption (shown : String)
  /-- there is no such option, but it is close to the one for help -/
  | misspelledHelp (shown : String)
  /-- the option for help takes no value -/
  | helpWithValue (value : String)
  deriving DecidableEq, Repr, Inhabited

/-- What the command is asked to do. -/
inductive Request where
  | help (form : HelpForm)
  | check (files : List Path)
  deriving DecidableEq, Repr, Inhabited

/-- What a single argument is, as long as options have not ended. -/
inductive Argument where
  | file
  | endOfOptions
  | help (form : HelpForm)
  | fault (fault : UsageFault)
  deriving DecidableEq, Repr, Inhabited

/-- The byte of a dash. -/
def dash : UInt8 := 0x2D

/-- The byte of an equals sign. -/
def equals : UInt8 := 0x3D

/-- The name of the option for help. -/
def helpName : List Char := ['h', 'e', 'l', 'p']

/-- Reads an argument that starts with two dashes, from its third byte. The name ends at the first
equals sign, and the value starts after it. -/
def readLong (bytes : List UInt8) : Argument :=
  let name := bytes.takeWhile fun b => b ≠ equals
  match bytes.dropWhile fun b => b ≠ equals with
  | _ :: value =>
    if Utf8.decode? name = some helpName then .fault (.helpWithValue (Utf8.decodeLossy value))
    else .fault (unknown (Utf8.decodeLossy name))
  | [] =>
    if Utf8.decode? name = some helpName then .help .long
    else .fault (unknown (Utf8.decodeLossy name))
where
  /-- The fault of a name that no option has. -/
  unknown (name : String) : UsageFault :=
    if Similarity.similar name.toList helpName then .misspelledHelp ("--" ++ name)
    else .unknownOption ("--" ++ name)

/-- Reads an argument that starts with a single dash, from its second byte. Only its first letter
matters. Bytes that start with no letter are shown as a whole. -/
def readShort (bytes : List UInt8) : Argument :=
  match Utf8.pieces bytes with
  | some 'h' :: _ => .help .short
  | some c :: _ => .fault (.unknownOption (String.ofList ['-', c]))
  | _ => .fault (.unknownOption ("-" ++ Utf8.decodeLossy bytes))

/-- Tells what an argument is. -/
def Argument.ofBytes (bytes : List UInt8) : Argument :=
  match bytes with
  | [] => .file
  | b :: rest =>
    if b ≠ dash then .file
    else match rest with
      | [] => .file
      | b :: rest' =>
        if b ≠ dash then readShort rest
        else if rest'.isEmpty then .endOfOptions
        else readLong rest'

/-- No argument for a file may be empty. -/
def withoutEmpty (files : List (List UInt8)) (request : Request) : Except UsageFault Request :=
  if files.any List.isEmpty then .error .emptyFile else .ok request

/-- The request of all the files that are given. -/
def requestCheck (files : List (List UInt8)) : Except UsageFault Request :=
  if files.isEmpty then .error .noFiles
  else withoutEmpty files (.check (files.map Path.mk))

/-- Reads arguments after those that were the files `files`. -/
def readArgumentsFrom (files : List (List UInt8)) :
    List (List UInt8) → Except UsageFault Request
  | [] => requestCheck files
  | argument :: rest =>
    match Argument.ofBytes argument with
    | .file => readArgumentsFrom (files ++ [argument]) rest
    | .endOfOptions => requestCheck (files ++ rest)
    | .help form => withoutEmpty files (.help form)
    | .fault fault => .error fault

/-- The request of the arguments of a command line. -/
def readArguments (arguments : List (List UInt8)) : Except UsageFault Request :=
  readArgumentsFrom [] arguments

end IncludeOrder.Command
