import Trendline.Batch
import Trendline.Files.Basic
import Trendline.Text.Literal

/-!
Why a program gives up, as a chain of messages from what it was doing down to the cause.
-/
namespace Trendline

open Text

inductive Failure where
  | openSeries (path : String) (e : FileError)
  /-- The file holds no document, or its bytes cannot be read. -/
  | readSeries (path : String) (e : Option FileError)
  | newerVersion (version newest : Float)
  | invalidBars (path : String) (e : Error Float)
  | invalidSeries (symbol path : String) (e : Error Float)
  | makeDirectory (path : String) (e : FileError)
  | createFile (path : String) (e : FileError)
  | readParams (path : String) (e : FileError)
  | parseParams (path : String)
  | params (e : Error Float)
  | batch (e : BatchError Float)
  /-- Bars that were made up break the rules. -/
  | invalidDemo (symbol : String) (e : Error Float)
  /-- Series could not be loaded, for a reason of its own. -/
  | load (path : String) (cause : Failure)

def BatchError.message : BatchError Float → String
  | .unknownSymbol symbol available =>
      "Symbol " ++ symbol ++ " not found (available: " ++ ", ".intercalate available ++ ")"
  | .failed symbol e =>
      "Analysis failed for " ++ symbol ++ ": " ++ (e.map Error.message).getD "no result"

/-- One message of a chain. -/
inductive Link where
  | text (message : String)
  /-- A document could not be read as what it should be, maybe for what happened to its file. -/
  | unreadable (e : Option FileError)
  | file (e : FileError)
  deriving Repr, DecidableEq

def Link.message : Link → String
  | .text message => message
  | .unreadable none => "the document is malformed"
  | .unreadable (some e) => e.message
  | .file e => e.message

/-- The messages from the outermost to the cause. -/
def Failure.chain : Failure → List Link
  | .openSeries path e => [.text ("Failed to open series file: " ++ literal path), .file e]
  | .readSeries path e =>
      [.text ("Failed to deserialize series file: " ++ literal path), .unreadable e]
  | .newerVersion version newest =>
      [.text ("Series file version mismatch: file v" ++ messageLayout.text version
        ++ " is newer than supported v" ++ messageLayout.text newest)]
  | .invalidBars path e => [.text ("Invalid bars in " ++ literal path), .text e.message]
  | .invalidSeries symbol path e =>
      [.text ("Invalid series '" ++ symbol ++ "' in " ++ literal path), .text e.message]
  | .makeDirectory path e => [.text ("Failed to create directory: " ++ path), .file e]
  | .createFile path e => [.text ("Failed to create file: " ++ path), .file e]
  | .readParams path e => [.text ("Failed to read params file: " ++ path), .file e]
  | .parseParams path => [.text ("Failed to parse params file: " ++ path), .unreadable none]
  | .params e => [.text e.message]
  | .batch e => [.text e.message]
  | .invalidDemo symbol e =>
      [.text ("Generated an invalid series for " ++ symbol), .text e.message]
  | .load path cause => .text ("Failed to load series from " ++ literal path) :: cause.chain

/-- The chain on lines of its own, the causes numbered if there are several. -/
def Failure.text (f : Failure) : String :=
  match f.chain.map Link.message with
  | [] => ""
  | [message] => message ++ "\n"
  | [message, cause] => message ++ "\n\nCaused by:\n    " ++ cause ++ "\n"
  | message :: causes =>
      message ++ "\n\nCaused by:\n"
        ++ String.join (causes.zipIdx.map fun (cause, i) =>
          "    " ++ natText i ++ ": " ++ cause ++ "\n")

end Trendline
