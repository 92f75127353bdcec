import Gleaner.CommandLine.Perform
import Gleaner.Output.Stamp
import Std.Time.DateTime.PlainDateTime
import Std.Time.DateTime.Timestamp

/-!
# The program

Performs the command line on the files, the environment and the clock of the
machine.
-/

namespace Gleaner.Main

/-- The fault of a code of the system, which some operations give below zero. -/
def numbered (code : UInt32) (details : String) : FileFault :=
  .ofCode code.toInt32.toInt.natAbs details

/-- The fault behind an error of the system. -/
def faultOf : IO.Error → FileFault
  | .alreadyExists _ code details | .invalidArgument _ code details
  | .permissionDenied _ code details | .resourceExhausted _ code details
  | .inappropriateType _ code details | .noSuchThing _ code details
  | .noFileOrDirectory _ code details | .interrupted _ code details
  | .otherError code details | .resourceBusy code details | .resourceVanished code details
  | .unsupportedOperation code details | .hardwareFault code details
  | .unsatisfiedConstraints code details | .illegalOperation code details
  | .protocolError code details | .timeExpired code details => numbered code details
  | .unexpectedEof => .other "unexpected end of file"
  | .userError _ => .other "stream did not contain valid UTF-8"

/-- The result of an action, or the fault behind its error. -/
def attempt {α : Type} (action : IO α) : IO (Except FileFault α) := do
  try return .ok (← action)
  catch e => return .error (faultOf e)

/-- The fault of reading a path, if there is one. -/
def readFault? (path : String) : IO (Option FileFault) := do
  match ← attempt (IO.FS.readFile path) with
  | .ok _ => return none
  | .error f => return some f

/-- The files of the machine. A directory is what cannot be read for being
one. -/
def files : FileSystem IO where
  read path := attempt (IO.FS.readFile path)
  write path content := attempt (IO.FS.writeFile path content)
  makeDirectory path := attempt (IO.FS.createDir path)
  holds path := do
    let fault ← readFault? path
    return fault != some .missing && fault != some .notDirectory
  hasDirectory path := return (← readFault? path) == some .isDirectory

/-- The time of the clock, in universal time. -/
def now : IO Moment := do
  let seconds := (← Std.Time.Timestamp.now).toSecondsSinceUnixEpoch
  let t := Std.Time.PlainDateTime.ofWallTime (.ofSeconds seconds)
  return {
    year := t.date.year.toInt.toNat
    month := t.date.month.val.toNat
    day := t.date.day.val.toNat
    hour := t.time.hour.val.toNat
    minute := t.time.minute.val.toNat
    second := t.time.second.val.toNat }

/-- The machine as the world around a command. -/
def host : CommandLine.Host IO where
  lookup name := IO.getEnv name
  stamp := return (← now).stamp
  files := files

end Gleaner.Main

/-- Performs the command line, and ends with its exit status. -/
def main (args : List String) : IO UInt32 := do
  let ending ← Gleaner.CommandLine.perform Gleaner.Main.host args
  IO.print ending.output
  for message in ending.messages do
    IO.eprintln message
  return ending.status.toUInt32
