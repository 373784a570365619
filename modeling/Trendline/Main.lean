import Std.Time.DateTime.Timestamp
import Trendline.Demo
import Trendline.Program

/-!
The command line, with the files of the machine. Under the name of the demo program it saves the
demo series; under every other name it runs the analysis.
-/
namespace Trendline

/-- An error of the machine by its number, which some calls report negated. -/
def FileError.ofNumber (number : UInt32) (reason : String) : FileError :=
  match if number < 0x80000000 then number else -number with
  | 2 => .notFound
  | 17 => .alreadyExists
  | 20 => .notDirectory
  | 21 => .isDirectory
  | 36 => .nameTooLong
  | n => .other (reason ++ " (os error " ++ natText n.toNat ++ ")")

def FileError.ofMachine (e : IO.Error) : FileError :=
  match e with
  | .otherError n reason | .resourceBusy n reason | .resourceVanished n reason
  | .unsupportedOperation n reason | .hardwareFault n reason | .unsatisfiedConstraints n reason
  | .illegalOperation n reason | .protocolError n reason | .timeExpired n reason
  | .interrupted _ n reason | .noFileOrDirectory _ n reason | .alreadyExists _ n reason
  | .invalidArgument _ n reason | .permissionDenied _ n reason | .resourceExhausted _ n reason
  | .inappropriateType _ n reason | .noSuchThing _ n reason => .ofNumber n reason
  | .unexpectedEof => .other "end of file"
  | .userError reason => .other reason

namespace Machine

def attempt {α : Type} (action : IO α) : IO (Except FileError α) := do
  match ← action.toBaseIO with
  | .ok a => return .ok a
  | .error e => return .error (.ofMachine e)

/-- The files of the machine. -/
def files : FileSystem IO where
  read path := attempt (IO.FS.readBinFile path)
  write path text := attempt (IO.FS.writeFile path text)
  makeDirectories path := attempt (IO.FS.createDirAll path)

/-- Tells why a program gives up. -/
def giveUp (f : Failure) : IO UInt32 := do
  IO.eprint ("Error: " ++ f.text)
  return 1

def saveDemo : IO UInt32 := do
  let now ← Std.Time.Timestamp.now
  match ← Demo.save files now.toMillisecondsSinceUnixEpoch.val with
  | .ok report =>
      IO.print report
      return 0
  | .error f => giveUp f

def analyse (o : Options) : IO UInt32 := do
  let r ← o.run files
  for notice in r.notices do
    IO.eprintln notice.text
  IO.print r.output
  match r.failure with
  | none => return 0
  | some f => giveUp f

def start (arguments : List String) : IO UInt32 := do
  match Options.ofArguments arguments with
  | .ok o => analyse o
  | .error .help =>
      IO.print (helpText programName)
      return 0
  | .error .version =>
      IO.println versionText
      return 0
  | .error (.misuse reason) =>
      IO.eprintln ("error: " ++ reason.message ++ "\n\nFor more information, try '--help'.")
      return misuseStatus.toUInt32

end Machine

end Trendline

def main (arguments : List String) : IO UInt32 := do
  if (← IO.appPath).fileName = some Trendline.Demo.programName then
    Trendline.Machine.saveDemo
  else
    Trendline.Machine.start arguments
