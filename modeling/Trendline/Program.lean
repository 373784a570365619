import Trendline.Calendar
import Trendline.CommandLine
import Trendline.Document.Overlay
import Trendline.Document.Store
import Trendline.Notice

/-!
The program that analyses the series of a file: parameters first, then the series, then all symbols
or one, and the overlays at the end. The first failure ends it, and nothing is written before every
analysis has succeeded.
-/
namespace Trendline

/-- What a run of the program shows. -/
structure Run where
  /-- What it prints. -/
  output : String
  /-- What it told on the way, in order. -/
  notices : List Notice
  /-- Why it gave up, if it did. -/
  failure : Option Failure

namespace Run

/-- A run that gave up. -/
def failed (notices : List Notice) (f : Failure) : Run :=
  ⟨"", notices, some f⟩

/-- The status with which the program ends. -/
def status (r : Run) : Nat :=
  if r.failure.isSome then 1 else 0

end Run

/-- The status with which the program ends if its arguments are wrong. -/
def misuseStatus : Nat := 2

def programName : String := "trend-sniper"

def versionText : String :=
  programName ++ " 0.1.0"

/-! What is told -/

def natListText (ns : List Nat) : String :=
  "[" ++ ", ".intercalate (ns.map natText) ++ "]"

def Notice.loaded (path : String) (c : Collection Float) (p : Params Float) : Notice :=
  ⟨.info, "Loaded " ++ natText c.series.length ++ " series from " ++ Text.literal path
    ++ " (lookbacks " ++ natListText p.sortedLookbacks.toList
    ++ ", min touches " ++ natText p.minTouches ++ ")"⟩

/-- How much was found for a symbol. -/
def Notice.found (symbol : String) (a : Analysis Float) : Notice :=
  ⟨.info, symbol ++ ": " ++ natText a.overlays.length ++ " lines from "
    ++ natText a.stats.totalCandidates ++ " candidates over " ++ natText a.stats.bars ++ " bars"⟩

/-- The overlay that ranks first. -/
def Notice.best (symbol : String) (o : Overlay Float) : Notice :=
  ⟨.info, symbol ++ ": best " ++ o.role.name ++ " line " ++ utcText o.left.time ++ " -> "
    ++ utcText o.right.time ++ " (score " ++ Decimal.fixed 3 o.score ++ ", "
    ++ natText o.touches.size ++ " touches)"⟩

def Notice.ofResult (symbol : String) (a : Analysis Float) : List Notice :=
  .found symbol a :: (a.overlays.head?.map (Notice.best symbol)).toList

def Notice.written (path : String) : Notice :=
  ⟨.info, "✅ Overlays written to " ++ Text.literal path⟩

namespace Options

/-- The parameters with what the options replace. -/
def override (o : Options) (p : Params Float) : Params Float :=
  { p with lookbacks := o.lookbacks.getD p.lookbacks, topN := o.topN <|> p.topN }

/-- The parameters to work with, if they are in range. -/
def check (o : Options) (p : Params Float) : Except Failure (Params Float) :=
  match (o.override p).validate with
  | .ok () => .ok (o.override p)
  | .error e => .error (.params e)

def spacing (o : Options) : Spacing :=
  if o.pretty then .indented else .compact

variable {m : Type → Type} [Monad m]

/-- The parameters of the file that the options name, or those by default, with what the options
replace. -/
def resolve (files : FileSystem m) (o : Options) : m (Except Failure (Params Float)) := do
  match o.params with
  | none => return o.check .default
  | some path => return (← Params.load files path) >>= o.check

/-- Prints the overlays, or writes them to the file that the options name. -/
def deliver (files : FileSystem m) (o : Options) (notices : List Notice)
    (results : List (String × Analysis Float)) : m Run := do
  let text := (overlaysToJson results).render o.spacing ++ "\n"
  match o.output with
  | none => return ⟨text, notices, none⟩
  | some path =>
      match ← files.write path text with
      | .ok () => return ⟨"", notices ++ [.written path], none⟩
      | .error e => return .failed notices (.createFile path e)

/-- Analyses a collection and delivers what was found. -/
def runOn (files : FileSystem m) (o : Options) (p : Params Float) (c : Collection Float) :
    m Run := do
  let (e, results) := (Engine.ofCollection c p).batch o.symbol
  let notices := .loaded o.inputPath c p :: e.log.reverse.map Event.notice
  match results with
  | .error e => return .failed notices (.batch e)
  | .ok results =>
      o.deliver files (notices ++ results.flatMap fun (symbol, a) => Notice.ofResult symbol a)
        results

/-- Runs the program. -/
def run (files : FileSystem m) (o : Options) : m Run := do
  match ← o.resolve files with
  | .error f => return .failed [] f
  | .ok p =>
      match ← Collection.load files o.inputPath with
      | .error f => return .failed [] (.load o.inputPath f)
      | .ok c => o.runOn files p c

end Options

end Trendline
