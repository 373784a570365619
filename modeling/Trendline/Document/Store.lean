import Trendline.Document.Params
import Trendline.Document.Series
import Trendline.Failure
import Trendline.Path

/-!
Documents in files: parameters, collections, which are loaded with every series checked, and series
files, which are also saved.
-/
namespace Trendline

namespace Collection

/-- The collection of one series, named after the file it comes from. -/
def ofBars (path : String) (bars : List (Bar Float)) : Except Failure (Collection Float) :=
  match Series.ofBars (Path.stem path) bars with
  | .ok s => .ok ⟨path, SeriesFile.newest, [s]⟩
  | .error e => .error (.invalidBars path e)

/-- The collection that a document holds. A series file of a newer version is refused. -/
def ofDocument (path : String) : SeriesDocument → Except Failure (Collection Float)
  | .file file =>
      if SeriesFile.newest < file.version then
        .error (.newerVersion file.version SeriesFile.newest)
      else
        .ok file.data
  | .collection c => .ok c
  | .bars bars => ofBars path bars

/-- Refuses a collection with a series that does not obey the rules. -/
def validate (path : String) (c : Collection Float) : Except Failure Unit :=
  c.series.forM fun s =>
    match s.validate with
    | .ok () => .ok ()
    | .error e => .error (.invalidSeries s.symbol path e)

/-- The checked collection in the text of a file. -/
def ofText (path : String) (text : Text.Source) : Except Failure (Collection Float) :=
  match SeriesDocument.ofText? text with
  | none => .error (.readSeries path none)
  | some document => do
      let c ← ofDocument path document
      c.validate path
      return c

end Collection

/-- What was read of a series file. A directory can be opened, but nothing can be read of it. -/
def seriesText (path : String) : Except FileError ByteArray → Except Failure Text.Source
  | .ok bytes => .ok (.ofBytes bytes)
  | .error .isDirectory => .error (.readSeries path (some .isDirectory))
  | .error e => .error (.openSeries path e)

/-- The parameters in what was read of a file. -/
def Params.ofFile (path : String) : Except FileError ByteArray → Except Failure (Params Float)
  | .error e => .error (.readParams path e)
  | .ok bytes =>
      match String.fromUTF8? bytes with
      | none => .error (.readParams path .notText)
      | some text =>
          match Params.ofText? (.ofString text) with
          | none => .error (.parseParams path)
          | some p => .ok p

variable {m : Type → Type} [Monad m]

/-- Reads parameters as they are; they are not checked. -/
def Params.load (files : FileSystem m) (path : String) : m (Except Failure (Params Float)) := do
  return Params.ofFile path (← files.read path)

def Collection.load (files : FileSystem m) (path : String) :
    m (Except Failure (Collection Float)) := do
  return seriesText path (← files.read path) >>= Collection.ofText path

namespace SeriesFile

def ofText (path : String) (text : Text.Source) : Except Failure (SeriesFile Float) :=
  match ofText? text with
  | none => .error (.readSeries path none)
  | some file => .ok file

/-- Reads a series file as it is; its series are not checked. -/
def load (files : FileSystem m) (path : String) : m (Except Failure (SeriesFile Float)) := do
  return seriesText path (← files.read path) >>= SeriesFile.ofText path

/-- Writes a series file, and makes its directory where it does not exist. -/
def save (files : FileSystem m) (path : String) (spacing : Spacing) (file : SeriesFile Float) :
    m (Except Failure Unit) := do
  let directory := Path.parent path
  let made ← if directory.isEmpty then pure (.ok ()) else files.makeDirectories directory
  match made with
  | .error e => return .error (.makeDirectory directory e)
  | .ok () =>
      match ← files.write path (file.render spacing) with
      | .error e => return .error (.createFile path e)
      | .ok () => return .ok ()

end SeriesFile

end Trendline
